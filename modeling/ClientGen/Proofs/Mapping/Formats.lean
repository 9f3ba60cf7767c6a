import ClientGen.Proofs.Endpoint.Media
import ClientGen.Proofs.Mapping.Effects
import ClientGen.Proofs.OpenApi.Source

/-!
# Formats of request bodies

The format in which an endpoint sends its body depends on the essences of all media types of the
body that is found for the operation, and on nothing else (`map_requestFormat_endpoints`).
-/

namespace ClientGen

open OpenApi

namespace Site

/-- The body of an operation, if it has one that can be resolved. -/
def body? (doc : Document) (site : Site) : Option RequestBody :=
  site.operation.requestBody.bind
    (doc.resolve? "requestBodies" doc.requestBodies RequestBody.read)

/-- The format that the media types of its body give an operation. An operation without a body has
the format of a body without content. -/
def requestFormat (doc : Document) (site : Site) : RequestFormat :=
  match site.body? doc with
  | some body => Media.preferredFormat (body.content.map fun entry => Media.essence entry.1)
  | none => .json

end Site

namespace Mapping

variable {doc : Document}

/-- The format of a body is the preferred one among the essences of its media types. -/
theorem bodyFormat_eq (content : List (String × MediaType)) :
    bodyFormat content =
      Media.preferredFormat (content.map fun entry => Media.essence entry.1) := by
  rcases hpick : Media.pick? content with _ | best
  · rw [bodyFormat, hpick, Media.pick?_eq_none_iff.mp hpick]
    rfl
  · rw [bodyFormat, hpick]
    exact Media.requestFormat_of_pick? hpick

/-- The format with which a body is mapped is the request format of its operation, in any state. -/
theorem siteBody_run_fst (doc : Document) (site : Site) (base : String) (state : Mapping) :
    ((siteBody doc site base).run state).1.1 = site.requestFormat doc := by
  rcases hbody : site.operation.requestBody with _ | body
  · rw [siteBody, hbody, Site.requestFormat, Site.body?, hbody]
    rfl
  · have hfound : site.body? doc =
        doc.resolve? "requestBodies" doc.requestBodies RequestBody.read body := by
      rw [Site.body?, hbody, Option.bind_some]
    rw [siteBody, hbody, Site.requestFormat, hfound]
    rcases hresolve : doc.resolve? "requestBodies" doc.requestBodies RequestBody.read body with
      _ | value
    · dsimp only
      rw [mapBody_of_unresolved hresolve]
      rfl
    · dsimp only
      rw [mapBody_of_resolved hresolve, ← bodyFormat_eq]
      rfl

/-- **Formats.** The endpoints of a document have the formats of its operations, one after
another. -/
theorem map_requestFormat_endpoints (doc : Document) :
    (Document.toApi doc).endpoints.map
        (fun endpoint => (endpoint.method, endpoint.path.raw, endpoint.requestFormat)) =
      (Site.all doc).map fun site => (site.method, site.path, site.requestFormat doc) := by
  refine map_endpoints fun site name state => ?_
  have hformat : ((mapSite doc site name).run state).1.requestFormat = site.requestFormat doc :=
    siteBody_run_fst doc site _ _
  rw [← hformat]
  rfl

/-- **Media types.** The media type that is chosen is the first of least rank, the format of an
endpoint is what all media types of its body say together, and neither parameters of media types nor
blanks around them change what is chosen or how it is sent. -/
theorem choice_agrees (doc : Document) {α : Type} (content : List (String × α)) :
    (Media.pick? content = none ↔ content = []) ∧
      (∀ best, Media.pick? content = some best ↔ Media.IsFirstLeast content best) ∧
      (Document.toApi doc).endpoints.map
          (fun endpoint => (endpoint.method, endpoint.path.raw, endpoint.requestFormat)) =
        (Site.all doc).map (fun site => (site.method, site.path, site.requestFormat doc)) ∧
      ∀ decorated : List (String × α),
        List.Forall₂ (fun entry other => Media.Decorates entry.1 other.1 ∧ entry.2 = other.2)
          content decorated →
        Option.Rel (fun entry other => Media.Decorates entry.1 other.1 ∧ entry.2 = other.2)
            (Media.pick? content) (Media.pick? decorated) ∧
          Media.preferredFormat (decorated.map fun entry => Media.essence entry.1) =
            Media.preferredFormat (content.map fun entry => Media.essence entry.1) := by
  refine ⟨Media.pick?_eq_none_iff, fun best => Media.pick?_eq_some_iff,
    map_requestFormat_endpoints doc, fun decorated h => ⟨?_, ?_⟩⟩
  · exact Media.rel_pick?_of_decorates h
  · exact Media.preferredFormat_of_decorates h

/-- The text of a document with bodies of several media types. -/
def sendingText : String := Text.concat [
  "\x7b\"paths\":\x7b\"/\":\x7b\"put\":\x7b\"requestBody\":\x7b\"content\":",
  "\x7b\"image/png\":\x7b\x7d,\" text/x+json ;v=1\":\x7b\x7d\x7d\x7d\x7d,",
  "\"post\":\x7b\"requestBody\":\x7b\"content\":",
  "\x7b\"text/plain\":\x7b\x7d,\"application/octet-stream\":\x7b\x7d\x7d\x7d\x7d\x7d\x7d\x7d"]

/-- A body in decorated JSON beside an image is sent as JSON, and one in plain text or bytes as it
is. -/
theorem choice_agrees_sending :
    ∃ doc, Document.ofText sendingText = .ok doc ∧
      (Document.toApi doc).endpoints.map
          (fun endpoint => (endpoint.method, endpoint.path.raw, endpoint.requestFormat)) =
        [(.put, "/", .json), (.post, "/", .binary)] ∧
      Media.Decorates "text/x+json" " text/x+json ;v=1" ∧
      ∃ best, Media.pick? [("image/png", 0), (" text/x+json ;v=1", 1)] = some best ∧
        best.2 = 1 := by
  obtain ⟨doc, hdoc, hsites⟩ : ∃ doc, Document.ofText sendingText = .ok doc ∧
      (Site.all doc).map (fun site => (site.method, site.path, site.requestFormat doc)) =
        [(.put, "/", .json), (.post, "/", .binary)] :=
    Document.exists_of_chars (by repeat' constructor) (by decide +kernel)
  have hplain : Media.Decorates "image/png" "image/png" :=
    ⟨[], [], [], by simp, List.forall_mem_nil _, List.forall_mem_nil _, Or.inl rfl⟩
  have hjson : Media.Decorates "text/x+json" " text/x+json ;v=1" :=
    ⟨[' '], [' '], [';', 'v', '=', '1'], by decide, List.forall_mem_singleton.mpr (by decide),
      List.forall_mem_singleton.mpr (by decide), Or.inr ⟨_, rfl⟩⟩
  obtain ⟨-, -, hendpoints, hdecorated⟩ :=
    choice_agrees doc [("image/png", 0), ("text/x+json", 1)]
  obtain ⟨hrel, -⟩ := hdecorated [("image/png", 0), (" text/x+json ;v=1", 1)]
    (.cons ⟨hplain, rfl⟩ (.cons ⟨hjson, rfl⟩ .nil))
  refine ⟨doc, hdoc, hendpoints.trans hsites, hjson, ?_⟩
  have hpick : Media.pick? [("image/png", 0), ("text/x+json", 1)] = some ("text/x+json", 1) := by
    decide +kernel
  rw [hpick] at hrel
  generalize Media.pick? [("image/png", 0), (" text/x+json ;v=1", 1)] = chosen at hrel ⊢
  cases hrel with
  | some hbest => exact ⟨_, rfl, hbest.2.symm⟩

end Mapping

end ClientGen
