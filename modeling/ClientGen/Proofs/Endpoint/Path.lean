import ClientGen.Endpoint.Path
import ClientGen.Text.Join
import Mathlib.Data.List.Basic

/-!
# Segments of paths

A path is read in two modes, outside of braces and inside of them, with the characters of the
segment that is not finished yet held back. What the segments and the characters held back stand for
is always the part of the path that is read, so that the segments of a path, written one after the
other, are the path (`concat_outside`, `concat_inside`). What is held back has no brace that would
have ended it, and that is all that is needed to tell which braces a segment can have (`Cut`): none
but that of a placeholder which the path never closes.
-/

namespace ClientGen

namespace PathSegment

/-- A segment as it stands in a path. -/
def text : PathSegment → String
  | .literal text => text
  | .param name => "\x7b" ++ name ++ "\x7d"

/-! ### Nothing is lost -/

/-- Fixed text that is held back stands for itself, even if it is empty. -/
theorem concat_literal? (text : List Char) :
    Text.concat ((literal? text).map PathSegment.text) = String.ofList text := by
  unfold literal?
  split_ifs with hempty
  · rw [List.isEmpty_iff.mp hempty]
    rfl
  · rfl

mutual

/-- The segments after fixed text stand for that text and for what follows it. -/
theorem concat_outside (text : List Char) : ∀ rest : List Char,
    Text.concat ((outside text rest).map PathSegment.text) = String.ofList (text.reverse ++ rest)
  | [] => by rw [outside, concat_literal?, List.append_nil]
  | c :: rest => by
    rw [outside]
    split_ifs with hopens
    · rw [List.map_append, Text.concat_append, concat_literal?, concat_inside [] rest,
        String.ofList_append, hopens]
      rfl
    · rw [concat_outside (c :: text) rest, List.reverse_cons, List.append_assoc,
        List.singleton_append]

/-- The segments after part of a name stand for its brace, that part, and what follows it. -/
theorem concat_inside (name : List Char) : ∀ rest : List Char,
    Text.concat ((inside name rest).map PathSegment.text) =
      String.ofList ('\x7b' :: (name.reverse ++ rest))
  | [] => by rw [inside, concat_literal?, List.append_nil]
  | c :: rest => by
    rw [inside]
    split_ifs with hcloses
    · have hparam : (PathSegment.param (String.ofList name.reverse)).text =
          String.ofList ('\x7b' :: (name.reverse ++ ['\x7d'])) := by
        rw [PathSegment.text, ← String.toList_inj]
        simp
      rw [List.map_cons, Text.concat_cons, concat_outside [] rest, hparam, ← String.ofList_append,
        hcloses]
      simp
    · rw [concat_inside (c :: name) rest, List.reverse_cons, List.append_assoc,
        List.singleton_append]

end

/-! ### Braces -/

/-- Segments as a path can be cut into: names end at the first closing brace, and fixed text before
the first opening brace, unless it is all that is left of a path after a brace that is never
closed. -/
inductive Cut : List PathSegment → Prop
  | nil : Cut []
  | param {name : String} {more : List PathSegment} (hname : '\x7d' ∉ name.toList)
      (hmore : Cut more) : Cut (.param name :: more)
  | literal {text : String} {more : List PathSegment} (hne : text ≠ "")
      (htext : '\x7b' ∉ text.toList) (hmore : Cut more) : Cut (.literal text :: more)
  | unclosed {text : String} {name : List Char} (htext : text.toList = '\x7b' :: name)
      (hname : '\x7d' ∉ name) : Cut [.literal text]

section Cut

variable {segments : List PathSegment}

/-- Fixed text without an opening brace may stand before segments. -/
theorem Cut.prepend {text : List Char} (htext : '\x7b' ∉ text) (h : Cut segments) :
    Cut (literal? text ++ segments) := by
  unfold literal?
  split_ifs with hempty
  · exact h
  · refine .literal ?_ (by rwa [String.toList_ofList]) h
    intro hnil
    rw [← String.toList_inj, String.toList_ofList] at hnil
    exact hempty (List.isEmpty_iff.mpr hnil)

mutual

/-- The text that is held back has no opening brace, because the first one ends it. -/
theorem cut_outside {text : List Char} (htext : '\x7b' ∉ text) : ∀ rest : List Char,
    Cut (outside text rest)
  | [] => by
    have hcut := Cut.nil.prepend (mt List.mem_reverse.mp htext)
    rw [List.append_nil] at hcut
    rwa [outside]
  | c :: rest => by
    rw [outside]
    split_ifs with hopens
    · exact (cut_inside List.not_mem_nil rest).prepend (mt List.mem_reverse.mp htext)
    · refine cut_outside ?_ rest
      rw [List.mem_cons, not_or]
      exact ⟨Ne.symm hopens, htext⟩

/-- The name that is held back has no closing brace, because the first one ends it. -/
theorem cut_inside {name : List Char} (hname : '\x7d' ∉ name) : ∀ rest : List Char,
    Cut (inside name rest)
  | [] => .unclosed (String.toList_ofList) (mt List.mem_reverse.mp hname)
  | c :: rest => by
    rw [inside]
    split_ifs with hcloses
    · refine .param ?_ (cut_outside List.not_mem_nil rest)
      rwa [String.toList_ofList, List.mem_reverse]
    · refine cut_inside ?_ rest
      rw [List.mem_cons, not_or]
      exact ⟨Ne.symm hcloses, hname⟩

end

/-- No name has a closing brace in it. -/
theorem Cut.notMem_name (h : Cut segments) {name : String} (hmem : .param name ∈ segments) :
    '\x7d' ∉ name.toList := by
  induction h with
  | nil => cases hmem
  | param hname _ ih =>
    rcases List.mem_cons.mp hmem with heq | hmore
    · cases heq
      exact hname
    · exact ih hmore
  | literal _ _ _ ih => exact ih ((List.mem_cons.mp hmem).resolve_left PathSegment.noConfusion)
  | unclosed _ _ => cases List.mem_singleton.mp hmem

/-- No fixed text is empty. -/
theorem Cut.ne_empty (h : Cut segments) {text : String} (hmem : .literal text ∈ segments) :
    text ≠ "" := by
  induction h with
  | nil => cases hmem
  | param _ _ ih => exact ih ((List.mem_cons.mp hmem).resolve_left PathSegment.noConfusion)
  | literal hne _ _ ih =>
    rcases List.mem_cons.mp hmem with heq | hmore
    · cases heq
      exact hne
    · exact ih hmore
  | unclosed htext _ =>
    cases List.mem_singleton.mp hmem
    rintro rfl
    cases htext

/-- Fixed text with an opening brace is the last segment, and the brace is its first character. -/
theorem Cut.of_mem_brace {before after : List PathSegment} {text : String}
    (h : Cut (before ++ .literal text :: after)) (hbrace : '\x7b' ∈ text.toList) :
    after = [] ∧ ∃ name, text.toList = '\x7b' :: name ∧ '\x7d' ∉ name := by
  induction before with
  | nil =>
    cases h with
    | literal _ htext _ => exact absurd hbrace htext
    | unclosed htext hname => exact ⟨rfl, _, htext, hname⟩
  | cons segment before ih =>
    rw [List.cons_append] at h
    generalize hmore : before ++ .literal text :: after = more at h ih
    cases h with
    | param _ hcut => exact ih hcut
    | literal _ _ hcut => exact ih hcut
    | unclosed _ _ => simp at hmore

end Cut

end PathSegment

/-! ### Templates -/

/-- **Segments.** The segments of a path, one after the other, are the path. No name of a
placeholder has a closing brace and no fixed text is empty. Fixed text with an opening brace is what
is left of the path from a brace that is never closed: it comes last, begins with that brace and
has no closing brace. -/
theorem PathTemplate.segments_parse (path : String) :
    Text.concat ((parse path).segments.map PathSegment.text) = path ∧
      (∀ name, .param name ∈ (parse path).segments → '\x7d' ∉ name.toList) ∧
      (∀ text, .literal text ∈ (parse path).segments → text ≠ "") ∧
      ∀ before text after, (parse path).segments = before ++ .literal text :: after →
        '\x7b' ∈ text.toList →
          after = [] ∧ text.toList.head? = some '\x7b' ∧ '\x7d' ∉ text.toList := by
  have hcut : PathSegment.Cut (parse path).segments :=
    PathSegment.cut_outside List.not_mem_nil path.toList
  refine ⟨?_, fun _ => hcut.notMem_name, fun _ => hcut.ne_empty, ?_⟩
  · have hconcat := PathSegment.concat_outside [] path.toList
    rwa [List.reverse_nil, List.nil_append, String.ofList_toList] at hconcat
  · intro before text after heq hbrace
    rw [heq] at hcut
    obtain ⟨hlast, name, htext, hname⟩ := hcut.of_mem_brace hbrace
    refine ⟨hlast, by rw [htext, List.head?_cons], ?_⟩
    rw [htext, List.mem_cons, not_or]
    exact ⟨by decide, hname⟩

/-- A path with braces that are nested, empty, closed only, and opened only. -/
def bracedPath : String := "/a\x7d/\x7bb\x7bc\x7d\x7b\x7d/\x7bd\x7b"

theorem PathTemplate.segments_parse_braced :
    (parse bracedPath).segments =
        [.literal "/a\x7d/", .param "b\x7bc", .param "", .literal "/", .literal "\x7bd\x7b"] ∧
      Text.concat ((parse bracedPath).segments.map PathSegment.text) = bracedPath ∧
      '\x7d' ∉ "b\x7bc".toList ∧ "/a\x7d/" ≠ "" ∧
      "\x7bd\x7b".toList.head? = some '\x7b' ∧ '\x7d' ∉ "\x7bd\x7b".toList := by
  have hsegments : (parse bracedPath).segments =
      [.literal "/a\x7d/", .param "b\x7bc", .param "", .literal "/", .literal "\x7bd\x7b"] := by
    decide
  obtain ⟨hconcat, hnames, htexts, hlast⟩ := segments_parse bracedPath
  refine ⟨hsegments, hconcat, hnames _ ?_, htexts _ ?_, ?_⟩
  · simp [hsegments]
  · simp [hsegments]
  · obtain ⟨-, hlast⟩ := hlast [.literal "/a\x7d/", .param "b\x7bc", .param "", .literal "/"]
      "\x7bd\x7b" [] hsegments (by decide)
    exact hlast

end ClientGen
