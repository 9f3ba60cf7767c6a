import ClientGen.Reference
import Mathlib.Data.List.Basic

/-!
# Canonical keys of references

Escaping a segment is undone by resolving its escapes (`decodeSegment_encodeSegment`), and an
escaped segment has no slash. Both come to two replacements, one after the other
(`encodeSegment_eq_replaceAll`, `decodeSegment_eq_replaceAll`). So the reference that stands for a
component (`componentKey`) is read back as that component, and every reference has a *canonical
key*: that of its component if it names one (`Names.canonical_eq`), and itself otherwise. Taking the
canonical key twice changes nothing (`canonical_canonical`).
-/

namespace ClientGen.Reference

/-! ### Escapes -/

/-- What is left of an escaped segment once every `~1` in it is resolved. -/
private def encodeTildes (segment : List Char) : List Char :=
  segment.flatMap fun c => if c = '~' then ['~', '0'] else [c]

private theorem replacePair_cons {d c x : Char} {rest : List Char} (hx : x ≠ '~') :
    replacePair d c (x :: rest) = x :: replacePair d c rest := by
  rw [replacePair]
  rintro y more rfl
  exact absurd rfl hx

/-- The first replacement takes back what was done to slashes, and nothing else. -/
private theorem replacePair_encodeChars (segment : List Char) :
    replacePair '1' '/' (encodeChars segment) = encodeTildes segment := by
  induction segment with
  | nil => rfl
  | cons c rest ih =>
    simp only [encodeChars, encodeTildes, List.flatMap_cons] at ih ⊢
    by_cases htilde : c = '~'
    · simp [htilde, replacePair, replacePair_cons, ih]
    · by_cases hslash : c = '/'
      · simp [hslash, replacePair, ih]
      · simp [htilde, hslash, replacePair_cons htilde, ih]

/-- The second replacement takes back what was done to tildes. -/
private theorem replacePair_encodeTildes (segment : List Char) :
    replacePair '0' '~' (encodeTildes segment) = segment := by
  induction segment with
  | nil => rfl
  | cons c rest ih =>
    simp only [encodeTildes, List.flatMap_cons] at ih ⊢
    by_cases htilde : c = '~'
    · simp [htilde, replacePair, ih]
    · simp [htilde, replacePair_cons htilde, ih]

/-- Decoding takes back encoding, for characters. -/
theorem decodeChars_encodeChars (segment : List Char) :
    decodeChars (encodeChars segment) = segment := by
  rw [decodeChars, replacePair_encodeChars, replacePair_encodeTildes]

/-- **Round trip.** Resolving the escapes of an escaped segment gives the segment back. -/
theorem decodeSegment_encodeSegment (segment : String) :
    decodeSegment (encodeSegment segment) = segment := by
  rw [decodeSegment, encodeSegment, String.toList_ofList, decodeChars_encodeChars,
    String.ofList_toList]

/-- No slash is left after encoding. -/
theorem slash_notMem_encodeChars (segment : List Char) : '/' ∉ encodeChars segment := by
  simp only [encodeChars, List.mem_flatMap, not_exists, not_and]
  intro c _ hmem
  split_ifs at hmem with htilde hslash
  · simp at hmem
  · simp at hmem
  · exact hslash (List.mem_singleton.mp hmem).symm

theorem slash_notMem_encodeSegment (segment : String) : '/' ∉ (encodeSegment segment).toList := by
  rw [encodeSegment, String.toList_ofList]
  exact slash_notMem_encodeChars segment.toList

theorem encodeSegment_ne_empty {segment : String} (h : segment ≠ "") :
    encodeSegment segment ≠ "" := by
  intro hempty
  have hround := decodeSegment_encodeSegment segment
  rw [hempty] at hround
  exact h hround.symm

/-- Replacing pairs leaves something of a text that is not empty. -/
private theorem replacePair_ne_nil {d c : Char} {text : List Char} (h : text ≠ []) :
    replacePair d c text ≠ [] := by
  fun_cases replacePair d c text <;> simp_all

theorem decodeSegment_ne_empty {segment : String} (h : segment ≠ "") :
    decodeSegment segment ≠ "" := by
  have hchars : segment.toList ≠ [] := by simpa using h
  have hdecoded := replacePair_ne_nil (d := '0') (c := '~')
    (replacePair_ne_nil (d := '1') (c := '/') hchars)
  simpa [decodeSegment, decodeChars] using hdecoded

/-- The last segment of a place below another is what it was made from. -/
theorem lastSegment_child (pointer segment : String) :
    lastSegment (child pointer segment) = segment := by
  have hslash : ∀ c ∈ (encodeChars segment.toList).reverse, decide (c ≠ '/') = true := by
    intro c hc
    refine decide_eq_true ?_
    rintro rfl
    exact slash_notMem_encodeChars segment.toList (List.mem_reverse.mp hc)
  have hchars : (child pointer segment).toList =
      pointer.toList ++ '/' :: encodeChars segment.toList := by
    rw [child, encodeSegment, String.toList_append, String.toList_append, List.append_assoc,
      String.toList_ofList, String.toList_ofList]
    rfl
  have hlast : lastSegmentChars (child pointer segment).toList = encodeChars segment.toList := by
    rw [lastSegmentChars, hchars, List.reverse_append, List.reverse_cons, List.append_assoc,
      List.takeWhile_append_of_pos hslash]
    simp
  rw [lastSegment, hlast]
  exact decodeSegment_encodeSegment segment

/-- A place below another tells that place and its own segment. -/
theorem child_inj {pointer segment other otherSegment : String} :
    child pointer segment = child other otherSegment ↔
      pointer = other ∧ segment = otherSegment := by
  refine ⟨fun h => ?_, fun h => h.1 ▸ h.2 ▸ rfl⟩
  have hsegment := congrArg lastSegment h
  rw [lastSegment_child, lastSegment_child] at hsegment
  subst hsegment
  rw [child, child, String.append_left_inj, String.append_left_inj] at h
  exact ⟨h, rfl⟩

/-! ### Escapes as replacements -/

/-- Every occurrence of a pattern replaced by a text, from left to right and after so many
characters that are skipped. -/
def replaceAfter (pattern text : List Char) : Nat → List Char → List Char
  | _, [] => []
  | skipped + 1, _ :: rest => replaceAfter pattern text skipped rest
  | 0, c :: rest =>
    if pattern.isPrefixOf (c :: rest) then
      text ++ replaceAfter pattern text (pattern.length - 1) rest
    else c :: replaceAfter pattern text 0 rest

/-- Every occurrence of a pattern, which is not empty, replaced by another text, from left to right.
No two occurrences overlap, and what is put in is not looked at again. -/
def replaceAll (pattern text segment : String) : String :=
  String.ofList (replaceAfter pattern.toList text.toList 0 segment.toList)

private theorem replaceAfter_singleton (c : Char) (text segment : List Char) :
    replaceAfter [c] text 0 segment = segment.flatMap fun d => if d = c then text else [d] := by
  induction segment with
  | nil => rfl
  | cons d rest ih =>
    rw [replaceAfter, List.flatMap_cons, ← ih]
    by_cases h : d = c
    · simp [h]
    · simp [h, Ne.symm h]

/-- Replacing a pair that begins with a tilde replaces it wherever it stands. -/
private theorem replaceAfter_pair (d c : Char) (segment : List Char) :
    replaceAfter ['~', d] [c] 0 segment = replacePair d c segment := by
  fun_induction replacePair d c segment with
  | case1 rest ih => simp [replaceAfter, ih]
  | case2 x rest hne ih =>
    rw [replaceAfter, ih]
    simp [Ne.symm hne]
  | case3 x rest hother ih =>
    have hprefix : ['~', d].isPrefixOf (x :: rest) = false := by
      cases rest with
      | nil => simp [List.isPrefixOf]
      | cons y more =>
        have hne : x ≠ '~' := fun heq => hother y more heq rfl
        simp [List.isPrefixOf, Ne.symm hne]
    rw [replaceAfter, hprefix, ih, if_neg Bool.false_ne_true]
  | case4 => rfl

/-- **Escaping.** First every `~` is replaced, and then every `/`. -/
theorem encodeSegment_eq_replaceAll (segment : String) :
    encodeSegment segment = replaceAll "/" "~1" (replaceAll "~" "~0" segment) := by
  rw [replaceAll, replaceAll, String.toList_ofList (l := replaceAfter _ _ _ _)]
  change _ = String.ofList (replaceAfter ['/'] ['~', '1'] 0
    (replaceAfter ['~'] ['~', '0'] 0 segment.toList))
  rw [replaceAfter_singleton, replaceAfter_singleton, List.flatMap_assoc, encodeSegment,
    encodeChars]
  refine congrArg String.ofList (List.flatMap_congr fun c _ => ?_)
  by_cases h : c = '~'
  · simp [h]
  · simp [h]

/-- **Unescaping.** First every `~1` is replaced, and then every `~0`. -/
theorem decodeSegment_eq_replaceAll (segment : String) :
    decodeSegment segment = replaceAll "~0" "~" (replaceAll "~1" "/" segment) := by
  rw [replaceAll, replaceAll, String.toList_ofList (l := replaceAfter _ _ _ _)]
  change _ = String.ofList (replaceAfter ['~', '0'] ['~'] 0
    (replaceAfter ['~', '1'] ['/'] 0 segment.toList))
  rw [replaceAfter_pair, replaceAfter_pair, decodeSegment, decodeChars]

private theorem replacePair_eq_self {d c : Char} {text : List Char}
    (h : c ∉ replacePair d c text) : replacePair d c text = text := by
  fun_induction replacePair d c text with
  | case1 => exact absurd List.mem_cons_self h
  | case2 x rest _ ih => rw [ih (mt (List.mem_cons_of_mem _) h)]
  | case3 x rest _ ih => rw [ih (mt (List.mem_cons_of_mem _) h)]
  | case4 => rfl

/-- A segment that stands for a text without special characters is written as it is. -/
theorem eq_decodeSegment {segment : String} (htilde : '~' ∉ (decodeSegment segment).toList)
    (hslash : '/' ∉ (decodeSegment segment).toList) : segment = decodeSegment segment := by
  rw [decodeSegment, String.toList_ofList, decodeChars] at htilde hslash
  rw [replacePair_eq_self htilde] at hslash
  rw [decodeSegment, decodeChars, replacePair_eq_self htilde, replacePair_eq_self hslash,
    String.ofList_toList]

/-! ### Components -/

theorem after?_append (start text : String) : after? start (start ++ text) = some text := by
  have h := List.isPrefixOf?_eq_some_iff_append_eq.mpr
    (show start.toList ++ text.toList = (start ++ text).toList from String.toList_append.symm)
  rw [after?, h, Option.map_some, String.ofList_toList]

theorem eq_append_of_after? {start text rest : String} (h : after? start text = some rest) :
    text = start ++ rest := by
  obtain ⟨chars, hchars, rfl⟩ := Option.map_eq_some_iff.mp h
  refine String.toList_inj.mp ?_
  rw [String.toList_append, String.toList_ofList]
  exact (List.isPrefixOf?_eq_some_iff_append_eq.mp hchars).symm

/-- The reference that stands for a component is read back as that component. -/
theorem componentName?_componentKey {name : String} (h : name ≠ "") :
    componentName? "schemas" (componentKey name) = some (encodeSegment name) := by
  rw [componentName?, componentKey, after?_append, Option.filter_some]
  simp [encodeSegment_ne_empty h, slash_notMem_encodeSegment name]

theorem componentName?_componentKey_empty :
    componentName? "schemas" (componentKey "") = none := by
  rw [componentName?, componentKey, after?_append]
  rfl

theorem ne_empty_of_componentName? {area reference name : String}
    (h : componentName? area reference = some name) : name ≠ "" := by
  obtain ⟨-, hname⟩ := Option.filter_eq_some_iff.mp h
  simp only [Bool.and_eq_true, decide_eq_true_eq] at hname
  exact hname.1

/-- A reference to a component goes on after the start of its section with one segment. -/
theorem eq_append_of_componentName? {area reference name : String}
    (h : componentName? area reference = some name) :
    reference = sectionStart area ++ name ∧ '/' ∉ name.toList := by
  obtain ⟨hafter, hname⟩ := Option.filter_eq_some_iff.mp h
  refine ⟨eq_append_of_after? hafter, ?_⟩
  simp only [Bool.and_eq_true, Bool.not_eq_true', List.contains_eq_mem, decide_eq_false_iff_not]
    at hname
  exact hname.2

/-- A reference names a component exactly if it is its section, followed by a name that is not empty
and has no slash in it. -/
theorem componentName?_eq_some_iff {area reference name : String} :
    componentName? area reference = some name ↔
      reference = sectionStart area ++ name ∧ name ≠ "" ∧ '/' ∉ name.toList := by
  refine ⟨fun h => ?_, fun ⟨heq, hne, hslash⟩ => ?_⟩
  · obtain ⟨heq, hslash⟩ := eq_append_of_componentName? h
    exact ⟨heq, ne_empty_of_componentName? h, hslash⟩
  · rw [heq, componentName?, after?_append, Option.filter_some]
    simp [hne, hslash]

/-- What stands before the last slash of a text. -/
private theorem dropWhile_reverse_append (pointer : String) {segment : String}
    (h : '/' ∉ segment.toList) :
    (pointer ++ "/" ++ segment).toList.reverse.dropWhile (fun c => decide (c ≠ '/')) =
      '/' :: pointer.toList.reverse := by
  have hslash : ∀ c ∈ segment.toList.reverse, decide (c ≠ '/') = true := by
    intro c hc
    refine decide_eq_true ?_
    rintro rfl
    exact h (List.mem_reverse.mp hc)
  have hchars : (pointer ++ "/" ++ segment).toList.reverse =
      segment.toList.reverse ++ '/' :: pointer.toList.reverse := by
    rw [String.toList_append, String.toList_append, List.reverse_append, List.reverse_append]
    rfl
  rw [hchars, List.dropWhile_append_of_pos hslash, List.dropWhile_cons_of_neg (by decide)]

/-- A place below another is that of a component only if the other is that of a section. -/
theorem eq_sectionStart_of_componentName? {area pointer segment name : String}
    (h : componentName? area (child pointer segment) = some name) :
    pointer ++ "/" = sectionStart area := by
  obtain ⟨heq, hname⟩ := eq_append_of_componentName? h
  have hbefore := dropWhile_reverse_append pointer (slash_notMem_encodeSegment segment)
  rw [← child, heq, sectionStart, dropWhile_reverse_append _ hname] at hbefore
  rw [sectionStart, String.toList_inj.mp (List.reverse_inj.mp (List.cons.inj hbefore).2)]

theorem sectionStart_schemas :
    sectionStart "schemas" = child (child "#" "components") "schemas" ++ "/" := by
  decide

theorem componentKey_eq_child (name : String) :
    componentKey name = child (child (child "#" "components") "schemas") name := by
  rw [componentKey, child, sectionStart_schemas]

/-- No two names have one key. -/
theorem componentKey_injective : Function.Injective componentKey := by
  intro name other h
  rw [componentKey_eq_child, componentKey_eq_child] at h
  exact (child_inj.mp h).2

/-- The key of a reference to a schema: that of the component it names, or the reference itself. -/
def canonical (reference : String) : String :=
  match componentName? "schemas" reference with
  | some escaped => componentKey (decodeSegment escaped)
  | none => reference

theorem canonical_componentKey (name : String) :
    canonical (componentKey name) = componentKey name := by
  by_cases h : name = ""
  · rw [h, canonical, componentName?_componentKey_empty]
  · rw [canonical, componentName?_componentKey h]
    exact congrArg componentKey (decodeSegment_encodeSegment name)

/-- A canonical key is its own canonical key. -/
theorem canonical_canonical (reference : String) :
    canonical (canonical reference) = canonical reference := by
  rcases h : componentName? "schemas" reference with _ | escaped
  · have : canonical reference = reference := by rw [canonical, h]
    rw [this, this]
  · have : canonical reference = componentKey (decodeSegment escaped) := by rw [canonical, h]
    rw [this, canonical_componentKey]

/-! ### Names -/

/-- Whether a reference names a component schema. Behind the start of the section stands one
segment, not empty, which with its escapes resolved is the name. -/
def Names (reference name : String) : Prop :=
  ∃ escaped, reference = "#/components/schemas/" ++ escaped ∧ escaped ≠ "" ∧
    '/' ∉ escaped.toList ∧ decodeSegment escaped = name

/-- A reference names a component as it is decoded. -/
theorem names_iff {reference name : String} :
    Names reference name ↔
      ∃ escaped, componentName? "schemas" reference = some escaped ∧
        decodeSegment escaped = name := by
  have hstart : sectionStart "schemas" = "#/components/schemas/" := by decide
  simp only [Names, componentName?_eq_some_iff, hstart, and_assoc]

theorem names_componentKey {name : String} (h : name ≠ "") : Names (componentKey name) name :=
  names_iff.mpr ⟨_, componentName?_componentKey h, decodeSegment_encodeSegment name⟩

/-- **Canonical keys.** The key of a reference that names a component is the component's. -/
theorem Names.canonical_eq {reference name : String} (h : Names reference name) :
    canonical reference = componentKey name := by
  obtain ⟨escaped, hescaped, rfl⟩ := names_iff.mp h
  rw [canonical, hescaped]

end ClientGen.Reference
