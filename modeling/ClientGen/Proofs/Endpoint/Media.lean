import ClientGen.Endpoint.Media
import Mathlib.Data.List.Basic
import Mathlib.Data.List.Forall2
import Mathlib.Data.List.TakeWhile
import Mathlib.Data.Option.Basic
import Mathlib.Tactic.SplitIfs

/-!
# Choosing a media type

The media type that is chosen is the first of those of least rank (`pick?_eq_some_iff`). How a body
is sent is told from the chosen media type by tests of their own, in an order of their own; both
classifications test alike (`rank_eq_findIdx`, `requestFormat_eq_find?`), so that the format of a
body can be told from all of its media types without choosing one (`requestFormat_of_pick?`).
Neither the parameters of a media type nor blanks around it have a say in any of this
(`rel_pick?_of_decorates`, `preferredFormat_of_decorates`).
-/

namespace ClientGen.Media

/-! ### The first of least rank -/

section Pick

variable {α : Type} {entries : List (String × α)} {best : String × α}

/-- Whether an entry is the first of those of least rank. -/
def IsFirstLeast (entries : List (String × α)) (best : String × α) : Prop :=
  ∃ before after, entries = before ++ best :: after ∧
    (∀ entry ∈ before, rank best.1 < rank entry.1) ∧ ∀ entry ∈ after, rank best.1 ≤ rank entry.1

/-- There is always a best entry, unless there is none at all. -/
theorem pick?_eq_none_iff : pick? entries = none ↔ entries = [] := by
  constructor
  · intro h
    cases entries with
    | nil => rfl
    | cons entry rest =>
      rw [pick?] at h
      split at h
      · cases h
      · split_ifs at h
  · rintro rfl
    rfl

/-- What is picked is the first entry of least rank. -/
theorem isFirstLeast_of_pick? (h : pick? entries = some best) : IsFirstLeast entries best := by
  induction entries generalizing best with
  | nil => cases h
  | cons entry rest ih =>
    rw [pick?] at h
    split at h
    next hnone =>
      cases h
      rw [pick?_eq_none_iff.mp hnone]
      exact ⟨[], [], rfl, List.forall_mem_nil _, List.forall_mem_nil _⟩
    next other hother =>
      obtain ⟨before, after, rfl, hbefore, hafter⟩ := ih hother
      -- The first entry is chosen if no later one has a smaller rank, so that it wins ties.
      split_ifs at h with hle <;> cases h
      · refine ⟨[], _, rfl, List.forall_mem_nil _, List.forall_mem_append.mpr ⟨?_, ?_⟩⟩
        · intro earlier hearlier
          have hlt := hbefore earlier hearlier
          omega
        · refine List.forall_mem_cons.mpr ⟨hle, fun later hlater => ?_⟩
          exact Nat.le_trans hle (hafter later hlater)
      · refine ⟨entry :: before, after, rfl, List.forall_mem_cons.mpr ⟨?_, hbefore⟩, hafter⟩
        omega

/-- If `other` stands at `best` or after it, then it is `best`: else `best` would stand before
`other`, which is at least as good. -/
private theorem eq_of_after {other : String × α} {after more after' : List (String × α)}
    (hafter : ∀ entry ∈ after, rank best.1 ≤ rank entry.1)
    (hmore : ∀ entry ∈ more, rank other.1 < rank entry.1)
    (h : best :: after = more ++ other :: after') : best = other := by
  cases more with
  | nil => exact (List.cons.inj h).1
  | cons first more =>
    obtain ⟨rfl, rfl⟩ := List.cons.inj h
    have hlt := hmore best List.mem_cons_self
    have hle := hafter other (List.mem_append_right _ List.mem_cons_self)
    omega

/-- No two entries are the first of least rank. -/
theorem IsFirstLeast.eq {other : String × α} (h : IsFirstLeast entries best)
    (hother : IsFirstLeast entries other) : best = other := by
  obtain ⟨before, after, rfl, hbefore, hafter⟩ := h
  obtain ⟨before', after', heq, hbefore', hafter'⟩ := hother
  -- One of the two entries stands at the other or after it.
  obtain ⟨more, rfl, hrest⟩ | ⟨more, rfl, hrest⟩ := List.append_eq_append_iff.mp heq
  · exact eq_of_after hafter (fun entry hmem => hbefore' entry (List.mem_append_right _ hmem)) hrest
  · exact (eq_of_after hafter' (fun entry hmem => hbefore entry (List.mem_append_right _ hmem))
      hrest).symm

/-- **The choice.** What is chosen is the first entry of least rank. -/
theorem pick?_eq_some_iff : pick? entries = some best ↔ IsFirstLeast entries best := by
  refine ⟨isFirstLeast_of_pick?, fun h => ?_⟩
  rcases hpick : pick? entries with _ | other
  · obtain ⟨before, after, rfl, -, -⟩ := h
    simp [pick?_eq_none_iff] at hpick
  · rw [h.eq (isFirstLeast_of_pick? hpick)]

/-- The preferred entry is one of least rank. -/
theorem pick?_spec (h : pick? entries = some best) :
    best ∈ entries ∧ ∀ entry ∈ entries, rank best.1 ≤ rank entry.1 := by
  obtain ⟨before, after, rfl, hbefore, hafter⟩ := isFirstLeast_of_pick? h
  refine ⟨List.mem_append_right _ List.mem_cons_self, List.forall_mem_append.mpr ⟨?_, ?_⟩⟩
  · exact fun entry hentry => Nat.le_of_lt (hbefore entry hentry)
  · exact List.forall_mem_cons.mpr ⟨Nat.le_refl _, hafter⟩

end Pick

/-! ### Kinds of media types -/

/-- The kinds of media types, as tests of an essence, that a request format is reserved for. A kind
is preferred to those after it. -/
def kinds : List ((String → Bool) × RequestFormat) := [
  (isJson, .json),
  (fun essence => essence = "multipart/form-data", .formData),
  (fun essence => essence = "application/x-www-form-urlencoded", .formUrl),
  (fun essence => essence = "application/octet-stream", .binary),
  (fun essence => startsWith essence "text/", .text)]

/-- The request format of an essence of no such kind. -/
def otherFormat (essence : String) : RequestFormat :=
  if startsWith essence "image/" || startsWith essence "audio/" || startsWith essence "video/"
      || essence = "application/pdf" then .binary
  else .json

/-- The request format of a body with media types of given essences, in order: that of the first
kind which any of them is of, or else what the first of them says, and JSON if there is none. -/
def preferredFormat (essences : List String) : RequestFormat :=
  match kinds.find? fun kind => essences.any kind.1 with
  | some kind => kind.2
  | none => (essences.head?.map otherFormat).getD .json

/-- A rank is the number of a kind. -/
theorem rank_eq_findIdx (media : String) :
    rank media = kinds.findIdx fun kind => kind.1 (essence media) := by
  unfold rank
  generalize essence media = essence
  dsimp only
  split_ifs <;> simp_all [kinds, List.findIdx_cons]

/-- The format of a media type is that of its kind, although texts are looked for before binary
data: no text is binary data. -/
theorem requestFormat_eq_find? (essence : String) :
    requestFormat essence =
      match kinds.find? fun kind => kind.1 essence with
      | some kind => kind.2
      | none => otherFormat essence := by
  by_cases hoctets : essence = "application/octet-stream"
  · rw [hoctets]
    decide
  · unfold requestFormat
    split_ifs <;> simp_all [kinds, otherFormat]

/-- The first kind that any of several are of is the kind of each of them whose kind comes first. -/
private theorem find?_any_eq {β γ : Type} (tests : List ((β → Bool) × γ)) {items : List β}
    {best : β} (hbest : best ∈ items) (hleast : ∀ item ∈ items,
      tests.findIdx (fun test => test.1 best) ≤ tests.findIdx fun test => test.1 item) :
    (tests.find? fun test => items.any test.1) = tests.find? fun test => test.1 best := by
  induction tests with
  | nil => rfl
  | cons test tests ih =>
    rw [List.find?_cons, List.find?_cons]
    rcases hany : items.any test.1 with _ | _
    · -- None passes the test, and the next tests decide for all of them.
      have hfails : ∀ item ∈ items, test.1 item = false := by simpa using hany
      rw [hfails best hbest]
      refine ih fun item hitem => ?_
      have hle := hleast item hitem
      rw [List.findIdx_cons, List.findIdx_cons, hfails best hbest, hfails item hitem] at hle
      simpa using hle
    · -- One passes the test, and so does one that passes a test no later.
      obtain ⟨item, hitem, hpasses⟩ := List.any_eq_true.mp hany
      have hle := hleast item hitem
      rcases htest : test.1 best with _ | _
      · rw [List.findIdx_cons, List.findIdx_cons, htest, hpasses] at hle
        simp at hle
      · rfl

section Format

variable {α : Type} {entries : List (String × α)} {best : String × α}

/-- The kind of the chosen media type is the first kind that any media type is of. -/
theorem find?_kinds_of_pick? (h : pick? entries = some best) :
    (kinds.find? fun kind => (entries.map fun entry => essence entry.1).any kind.1) =
      kinds.find? fun kind => kind.1 (essence best.1) := by
  obtain ⟨hmem, hleast⟩ := pick?_spec h
  refine find?_any_eq kinds (List.mem_map.mpr ⟨best, hmem, rfl⟩) ?_
  intro other hother
  obtain ⟨entry, hentry, rfl⟩ := List.mem_map.mp hother
  rw [← rank_eq_findIdx, ← rank_eq_findIdx]
  exact hleast entry hentry

/-- **The format of a body.** The format of the chosen media type can be told from all media types
without choosing one. -/
theorem requestFormat_of_pick? (h : pick? entries = some best) :
    requestFormat (essence best.1) =
      preferredFormat (entries.map fun entry => essence entry.1) := by
  rw [requestFormat_eq_find?, preferredFormat, find?_kinds_of_pick? h]
  split
  · rfl
  next hfind =>
    -- An entry of no kind is chosen only if it is the first.
    obtain ⟨before, after, rfl, hbefore, -⟩ := isFirstLeast_of_pick? h
    cases before with
    | nil => simp only [List.nil_append, List.map_cons, List.head?_cons, Option.map_some,
        Option.getD_some]
    | cons first before =>
      have hlast : (kinds.findIdx fun kind => kind.1 (essence best.1)) = kinds.length :=
        List.findIdx_eq_length.mpr fun kind hkind => by
          simpa using List.find?_eq_none.mp hfind kind hkind
      have hlt := hbefore first List.mem_cons_self
      rw [rank_eq_findIdx, rank_eq_findIdx, hlast] at hlt
      exact absurd List.findIdx_le_length (Nat.not_le.mpr hlt)

end Format

/-! ### Parameters and blanks -/

section Decorations

/-- Blanks at the two ends of a text have no say in what is left when it is trimmed. -/
private theorem trimEnd_trimStart_append {before text after : List Char}
    (hbefore : ∀ c ∈ before, Text.isBlank c = true) (hafter : ∀ c ∈ after, Text.isBlank c = true) :
    Text.trimEnd (Text.trimStart (before ++ text ++ after)) =
      Text.trimEnd (Text.trimStart text) := by
  have hstart : Text.trimStart (before ++ text ++ after) =
      if (Text.trimStart text).isEmpty then [] else Text.trimStart text ++ after := by
    unfold Text.trimStart
    rw [List.append_assoc, List.dropWhile_append_of_pos hbefore, List.dropWhile_append,
      List.dropWhile_eq_nil_iff.mpr hafter]
  rw [hstart]
  split
  next hempty => rw [List.isEmpty_iff.mp hempty]
  · have hreverse : ∀ c ∈ after.reverse, Text.isBlank c = true := fun c hc =>
      hafter c (List.mem_reverse.mp hc)
    unfold Text.trimEnd
    rw [List.reverse_append, List.dropWhile_append_of_pos hreverse]

/-- Whether a media type is another one with blanks around it and maybe parameters behind it. -/
def Decorates (plain decorated : String) : Prop :=
  ∃ before after parameters : List Char,
    decorated.toList = before ++ plain.toList ++ after ++ parameters ∧
    (∀ c ∈ before, Text.isBlank c = true) ∧ (∀ c ∈ after, Text.isBlank c = true) ∧
    (parameters = [] ∨ ∃ rest, parameters = ';' :: rest)

variable {plain decorated : String}

/-- Parameters begin with a semicolon, so that nothing of them is taken. -/
private theorem takeWhile_parameters {parameters : List Char}
    (h : parameters = [] ∨ ∃ rest, parameters = ';' :: rest) :
    parameters.takeWhile (· ≠ ';') = [] := by
  rcases h with rfl | ⟨rest, rfl⟩
  · rfl
  · exact List.takeWhile_cons_of_neg (by decide)

/-- Blanks are no semicolons. -/
private theorem ne_semicolon {blanks : List Char} (h : ∀ c ∈ blanks, Text.isBlank c = true) :
    ∀ c ∈ blanks, (decide (c ≠ ';')) = true := by
  intro c hc
  rw [decide_eq_true_eq]
  rintro rfl
  exact absurd (h _ hc) (by decide)

/-- A decorated media type has the essence of the plain one. -/
theorem Decorates.essence_eq (h : Decorates plain decorated) :
    essence decorated = essence plain := by
  obtain ⟨before, after, parameters, hdecorated, hbefore, hafter, hparameters⟩ := h
  -- Parameters of the plain media type end both essences before the blanks that come after.
  have htake : ∃ blanks : List Char, (∀ c ∈ blanks, Text.isBlank c = true) ∧
      decorated.toList.takeWhile (· ≠ ';') =
        before ++ plain.toList.takeWhile (· ≠ ';') ++ blanks := by
    rw [hdecorated, List.append_assoc, List.append_assoc,
      List.takeWhile_append_of_pos (ne_semicolon hbefore), List.takeWhile_append]
    split
    next hlength =>
      have hplain := List.IsPrefix.eq_of_length (List.takeWhile_prefix _) hlength
      refine ⟨after, hafter, ?_⟩
      rw [List.takeWhile_append_of_pos (ne_semicolon hafter), takeWhile_parameters hparameters,
        hplain, List.append_nil, List.append_assoc]
    · exact ⟨[], List.forall_mem_nil _, (List.append_nil _).symm⟩
  obtain ⟨blanks, hblanks, htake⟩ := htake
  rw [essence, essence, htake, Text.trim, Text.trim, String.toList_ofList, String.toList_ofList,
    trimEnd_trimStart_append hbefore hblanks]

/-- A decorated media type has the rank of the plain one. -/
theorem Decorates.rank_eq (h : Decorates plain decorated) : rank decorated = rank plain := by
  rw [rank, rank, h.essence_eq]

variable {α : Type} {entries others : List (String × α)}

/-- Decorations of media types have no say in which of several entries is chosen. -/
theorem rel_pick?_of_decorates
    (h : List.Forall₂ (fun entry other => Decorates entry.1 other.1 ∧ entry.2 = other.2)
      entries others) :
    Option.Rel (fun entry other => Decorates entry.1 other.1 ∧ entry.2 = other.2)
      (pick? entries) (pick? others) := by
  induction h with
  | nil => exact .none
  | @cons entry other rest others hfirst _ ih =>
    rw [pick?, pick?]
    generalize pick? rest = chosen, pick? others = chosen' at ih
    cases ih with
    | none => exact .some hfirst
    | some hbest =>
      dsimp only
      rw [hfirst.1.rank_eq, hbest.1.rank_eq]
      split
      · exact .some hfirst
      · exact .some hbest

/-- Decorations of media types have no say in the format. -/
theorem preferredFormat_of_decorates
    (h : List.Forall₂ (fun entry other => Decorates entry.1 other.1 ∧ entry.2 = other.2)
      entries others) :
    preferredFormat (others.map fun entry => essence entry.1) =
      preferredFormat (entries.map fun entry => essence entry.1) := by
  have hessences : (others.map fun entry => essence entry.1) =
      entries.map fun entry => essence entry.1 := by
    induction h with
    | nil => rfl
    | cons hfirst _ ih => rw [List.map_cons, List.map_cons, hfirst.1.essence_eq, ih]
  rw [hessences]

end Decorations

end ClientGen.Media
