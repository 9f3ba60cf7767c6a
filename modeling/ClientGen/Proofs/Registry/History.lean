import ClientGen.Proofs.Registry
import Mathlib.Data.Finset.Card
import Mathlib.Data.List.Range
import Mathlib.Order.Bounds.Basic

/-!
# Names over a history of requests

A registry that starts with reserved names is asked for the names of keys, one request after the
other (`answers`). Whatever the keys and the bases are, a key is told one name at all times and no
other key is told it, and no name is reserved. A key that is new gets the base of its request if
that is free, and otherwise the base with the least number from 2 on that makes it free. Bases may
end in numbers, so what is free depends on all names handed out and not only on those with the same
base; `mem_taken_after` says that these are what the registry has written down.
-/

namespace ClientGen.Registry

/-! ### The first free name -/

/-- Whether `name` is what a name made from `base` must be: `base` itself if that is not taken,
otherwise `base` with the least number from 2 on that makes it free. As many names as there are
taken ones are tried at most, and one more. -/
def IsFirstFree (taken : List String) (base name : String) : Prop :=
  if base ∈ taken then
    ∃ n, IsLeast {n | 2 ≤ n ∧ base ++ toString n ∉ taken} n ∧ n ≤ taken.toFinset.card + 1 ∧
      name = base ++ toString n
  else name = base

/-- Which name is the first free one depends only on which names are taken. -/
theorem isFirstFree_congr {taken other : List String} (h : ∀ name, name ∈ taken ↔ name ∈ other)
    (base name : String) : IsFirstFree taken base name ↔ IsFirstFree other base name := by
  have hfinset : taken.toFinset = other.toFinset := by
    ext name
    rw [List.mem_toFinset, List.mem_toFinset, h]
  simp only [IsFirstFree, hfinset, h]

theorem numbered_ne (base : String) (n : Nat) : numbered base n ≠ base := by
  intro heq
  have hlength := congrArg String.length heq
  have hpos : 0 < (toString (n + 2)).length := by
    rw [Nat.toString_eq_repr, Nat.repr_eq_ofList_toDigits, String.length_ofList]
    exact Nat.length_toDigits_pos
  rw [numbered, String.length_append] at hlength
  omega

/-- Numbers that are all taken are fewer than the names that are taken, the base among these. -/
theorem lt_card_of_forall_taken {taken : List String} {base : String} (hbase : base ∈ taken)
    {n : Nat} (h : ∀ m < n, numbered base m ∈ taken) : n < taken.toFinset.card := by
  have hnotMem : base ∉ (Finset.range n).image (numbered base) := by
    rw [Finset.mem_image]
    rintro ⟨m, -, heq⟩
    exact numbered_ne base m heq
  have hsubset : insert base ((Finset.range n).image (numbered base)) ⊆ taken.toFinset := by
    refine Finset.insert_subset (List.mem_toFinset.mpr hbase) (Finset.image_subset_iff.mpr ?_)
    exact fun m hm => List.mem_toFinset.mpr (h m (Finset.mem_range.mp hm))
  have hcard := Finset.card_le_card hsubset
  rw [Finset.card_insert_of_notMem hnotMem,
    Finset.card_image_of_injective _ (numbered_injective base), Finset.card_range] at hcard
  exact hcard

/-- If the base is taken, then the name is the first numbered variant that is not. -/
theorem exists_freeName_eq_numbered {taken : List String} {base : String} (h : base ∈ taken) :
    ∃ n, freeName taken base = numbered base n ∧ numbered base n ∉ taken ∧
      ∀ m < n, numbered base m ∈ taken := by
  have hfree := freeName_notMem taken base
  rw [freeName, if_pos h] at hfree ⊢
  dsimp only at hfree ⊢
  rw [List.find?_map] at hfree ⊢
  rcases hfind : (List.range (taken.length + 1)).find?
      ((fun name => !taken.contains name) ∘ numbered base) with _ | n
  · rw [hfind] at hfree
    exact absurd h hfree
  · obtain ⟨hn, -, hbefore⟩ := List.find?_range_eq_some.mp hfind
    refine ⟨n, rfl, by simpa using hn, fun m hm => ?_⟩
    have htaken := hbefore m hm
    simpa using htaken

/-- The name made from a base is the first one that is free. -/
theorem isFirstFree_freeName (taken : List String) (base : String) :
    IsFirstFree taken base (freeName taken base) := by
  rw [IsFirstFree]
  split_ifs with hbase
  · obtain ⟨n, hname, hfree, hbefore⟩ := exists_freeName_eq_numbered hbase
    have hcard := lt_card_of_forall_taken hbase hbefore
    refine ⟨n + 2, ⟨⟨Nat.le_add_left 2 n, hfree⟩, ?_⟩, by omega, hname⟩
    rintro m ⟨hm, hother⟩
    by_contra hlt
    have htaken := hbefore (m - 2) (by omega)
    rw [numbered, Nat.sub_add_cancel hm] at htaken
    exact hother htaken
  · rw [freeName, if_neg hbase]

/-! ### Requests -/

/-- A request for the name of a key: made from the key or from another base. -/
inductive Request
  | resolve (key : String)
  | resolveAs (key base : String)
deriving DecidableEq, Repr

namespace Request

/-- The key whose name is asked for. -/
def key : Request → String
  | resolve key => key
  | resolveAs key _ => key

/-- What the name is made from if the key has none yet. -/
def base : Request → String
  | resolve key => Identifier.typeName (Reference.lastSegment key)
  | resolveAs _ base => base

/-- The name that a registry gives on a request, and the registry afterwards. -/
def answer (registry : Registry) : Request → String × Registry
  | resolve key => registry.resolve key
  | resolveAs key base => registry.resolveAs key base

end Request

/-- The registry after some requests. -/
def after (registry : Registry) (requests : List Request) : Registry :=
  requests.foldl (fun registry request => (request.answer registry).2) registry

/-- Requests one after the other, each with the name given on it. -/
def answers (registry : Registry) : List Request → List (Request × String)
  | [] => []
  | request :: rest =>
    (request, (request.answer registry).1) :: answers (request.answer registry).2 rest

section

variable {reserved : List String} {registry : Registry}

theorem answer_eq (registry : Registry) (request : Request) :
    request.answer registry = registry.resolveAs request.key request.base := by
  cases request <;> rfl

theorem after_cons (registry : Registry) (request : Request) (rest : List Request) :
    registry.after (request :: rest) =
      (registry.resolveAs request.key request.base).2.after rest := by
  rw [after, List.foldl_cons, answer_eq, after]

theorem answers_cons (registry : Registry) (request : Request) (rest : List Request) :
    registry.answers (request :: rest) =
      (request, (registry.resolveAs request.key request.base).1) ::
        (registry.resolveAs request.key request.base).2.answers rest := by
  rw [answers, answer_eq]

theorem answers_append (registry : Registry) (requests more : List Request) :
    registry.answers (requests ++ more) =
      registry.answers requests ++ (registry.after requests).answers more := by
  induction requests generalizing registry with
  | nil => rfl
  | cons request rest ih =>
    rw [List.cons_append, answers_cons, answers_cons, after_cons, ih, List.cons_append]

/-- Names stay distinct over any history. -/
theorem Distinct.after (h : Distinct reserved registry) (requests : List Request) :
    Distinct reserved (registry.after requests) := by
  induction requests generalizing registry with
  | nil => exact h
  | cons request rest ih =>
    rw [after_cons]
    exact ih (h.resolveAs request.key request.base)

/-- No key loses its name over any history. -/
theorem name?_after_of_name? {key name : String} (h : registry.name? key = some name)
    (requests : List Request) : (registry.after requests).name? key = some name := by
  induction requests generalizing registry with
  | nil => exact h
  | cons request rest ih =>
    rw [after_cons]
    exact ih (name?_resolveAs_of_name? h request.key request.base)

/-- A name that was given on a request is the name of the key ever after. -/
theorem name?_after_of_mem_answers {requests : List Request} {answer : Request × String}
    (h : answer ∈ registry.answers requests) :
    (registry.after requests).name? answer.1.key = some answer.2 := by
  induction requests generalizing registry with
  | nil => cases h
  | cons request rest ih =>
    rw [answers_cons] at h
    rw [after_cons]
    rcases List.mem_cons.mp h with rfl | hrest
    · exact name?_after_of_name? (name?_resolveAs_self registry request.key request.base) rest
    · exact ih hrest

/-- A key that no request was about has no name but the one it had. -/
theorem name?_after_of_forall_ne {requests : List Request} {key : String}
    (h : ∀ request ∈ requests, request.key ≠ key) :
    (registry.after requests).name? key = registry.name? key := by
  induction requests generalizing registry with
  | nil => rfl
  | cons request rest ih =>
    obtain ⟨hrequest, hrest⟩ := List.forall_mem_cons.mp h
    rw [after_cons, ih hrest]
    exact name?_resolveAs_of_ne registry hrequest.symm request.base

theorem taken_subset_after (registry : Registry) (requests : List Request) :
    registry.taken ⊆ (registry.after requests).taken := by
  induction requests generalizing registry with
  | nil => exact List.Subset.refl _
  | cons request rest ih =>
    rw [after_cons]
    exact List.Subset.trans (taken_subset_resolveAs registry request.key request.base) (ih _)

/-- No name gets taken but those that are handed out. -/
theorem mem_of_mem_taken_after {requests : List Request} {name : String}
    (h : name ∈ (registry.after requests).taken) :
    name ∈ registry.taken ++ (registry.answers requests).map Prod.snd := by
  induction requests generalizing registry with
  | nil => exact List.mem_append_left _ h
  | cons request rest ih =>
    rw [after_cons] at h
    rw [answers_cons, List.map_cons]
    rcases List.mem_append.mp (ih h) with hold | hnew
    · rcases mem_taken_resolveAs hold with rfl | hold
      · exact List.mem_append_right _ List.mem_cons_self
      · exact List.mem_append_left _ hold
    · exact List.mem_append_right _ (List.mem_cons_of_mem _ hnew)

/-- Taken are the names that were from the start and those that were handed out. -/
theorem mem_taken_after (h : Distinct reserved registry) (requests : List Request)
    (name : String) :
    name ∈ (registry.after requests).taken ↔
      name ∈ registry.taken ++ (registry.answers requests).map Prod.snd := by
  refine ⟨mem_of_mem_taken_after, fun hname => ?_⟩
  rcases List.mem_append.mp hname with hold | hnew
  · exact taken_subset_after registry requests hold
  · obtain ⟨answer, hanswer, rfl⟩ := List.mem_map.mp hnew
    have hassigned := mem_assigned_of_name? (name?_after_of_mem_answers hanswer)
    exact (h.after requests).taken _ hassigned

end

/-! ### Histories -/

/-- **Names.** Of all requests to a registry with reserved names, two get one name exactly if they
are about one key, and none gets a reserved name. The first request about a key gets the first free
name for its base, where the reserved names and those handed out before are taken. -/
theorem answers_reserving (reserved : List String) (requests : List Request) :
    (∀ first ∈ (reserving reserved).answers requests,
      ∀ second ∈ (reserving reserved).answers requests,
        (first.2 = second.2 ↔ first.1.key = second.1.key)) ∧
    (∀ answer ∈ (reserving reserved).answers requests, answer.2 ∉ reserved) ∧
    ∀ earlier request later, requests = earlier ++ request :: later →
      (∀ other ∈ earlier, other.key ≠ request.key) →
      ∃ name rest,
        (reserving reserved).answers requests =
          (reserving reserved).answers earlier ++ (request, name) :: rest ∧
        IsFirstFree (reserved ++ ((reserving reserved).answers earlier).map Prod.snd)
          request.base name := by
  have hdistinct := distinct_reserving reserved
  refine ⟨fun first hfirst second hsecond => ?_, fun answer hanswer => ?_, ?_⟩
  · have hname := name?_after_of_mem_answers hfirst
    have hother := name?_after_of_mem_answers hsecond
    constructor
    · intro heq
      rw [heq] at hname
      exact (hdistinct.after requests).key_eq hname hother
    · intro heq
      rw [heq] at hname
      exact Option.some.inj (hname.symm.trans hother)
  · have hassigned := mem_assigned_of_name? (name?_after_of_mem_answers hanswer)
    exact (hdistinct.after requests).free _ hassigned
  · rintro earlier request later rfl hnew
    have hnone : ((reserving reserved).after earlier).name? request.key = none :=
      name?_after_of_forall_ne hnew
    refine ⟨_, _, (answers_append _ _ _).trans (congrArg _ (answers_cons _ _ _)), ?_⟩
    -- The key has not come before, so that it gets a name that is free.
    rw [resolveAs_of_none hnone]
    exact (isFirstFree_congr (mem_taken_after hdistinct earlier) _ _).mp (isFirstFree_freeName _ _)

/-- A numbered name may be the base of another key. -/
example :
    ((reserving ["B"]).answers [.resolveAs "x" "A2", .resolveAs "y" "A", .resolveAs "z" "A",
        .resolveAs "y" "B", .resolve "#/b", .resolve "#/a-2"]).map Prod.snd =
      ["A2", "A", "A3", "A", "B2", "A22"] := by
  decide +kernel

end ClientGen.Registry
