import ClientGen.Mapping.Endpoint
import ClientGen.Proofs.Json.Distinct
import ClientGen.Proofs.Json.Texts
import ClientGen.Proofs.Reference

/-!
# Places of operations

No two operations of a document stand at one place (`Document.Placed.nodup_pointers`): paths have
distinct names, as members of one object, the operations on one path have distinct methods for the
same reason, and the place of an operation tells its path and its method.
-/

namespace ClientGen

open OpenApi

namespace Json

variable {α σ : Type}

/-! ### Records -/

/-- Whether reading a field from a value with distinct names keeps a property of a record. -/
def RecordField.Keeps (field : RecordField σ) (p : σ → Prop) : Prop :=
  ∀ json before after, json.Distinct → p before → field.fill json before = .ok after → p after

/-- A field keeps a property if storing whatever is read for it does. -/
theorem RecordField.keeps_of {p : σ → Prop} {value : Decoder α} {store : σ → α → σ}
    (hstore : ∀ json read before, json.Distinct → value json = .ok read → p before →
      p (store before read)) (name : String) (presence : Presence) :
    (RecordField.of name presence value store).Keeps p := by
  intro json before after hjson hbefore hfill
  obtain ⟨read, hread, rfl⟩ := exists_of_map_ok hfill
  exact hstore json read before hjson hread hbefore

section Record

variable {fields : List (RecordField σ)} {p : σ → Prop} (hfields : ∀ field ∈ fields, field.Keeps p)
include hfields

/-- Filling a record from the members of an object keeps what every field keeps. -/
private theorem holds_foldlM_fillNamed {members : List (String × Json)}
    (hmembers : ∀ member ∈ members, member.2.Distinct) {before after : σ} (hbefore : p before)
    (h : members.foldlM (fillNamed fields) before = .ok after) : p after := by
  induction members generalizing before with
  | nil =>
    cases h
    exact hbefore
  | cons member more ih =>
    obtain ⟨hmember, hmore⟩ := List.forall_mem_cons.mp hmembers
    rw [List.foldlM_cons] at h
    obtain ⟨next, hnext, h⟩ := exists_of_bind_ok h
    have hfirst : p next := by
      rw [fillNamed] at hnext
      split at hnext
      · exact hfields _ (List.mem_of_find?_eq_some ‹_›) _ _ _ hmember hbefore hnext
      · cases hnext
        exact hbefore
    exact ih hmore hfirst h

private theorem holds_fillInOrder {name : String} {count place : Nat} {items : List Json}
    (hitems : ∀ item ∈ items, item.Distinct) {before after : σ} (hbefore : p before)
    (h : fillInOrder name count place fields items before = .ok after) : p after := by
  induction fields generalizing place items before with
  | nil =>
    rw [fillInOrder] at h
    cases h
    exact hbefore
  | cons field fields ih =>
    obtain ⟨hfield, hmore⟩ := List.forall_mem_cons.mp hfields
    cases items with
    | nil =>
      rw [fillInOrder] at h
      split_ifs at h
      exact ih hmore hitems hbefore h
    | cons item items =>
      obtain ⟨hitem, hrest⟩ := List.forall_mem_cons.mp hitems
      rw [fillInOrder] at h
      obtain ⟨next, hnext, h⟩ := exists_of_bind_ok h
      exact ih hmore hrest (hfield item before next hitem hbefore hnext) h

/-- **Records.** What all fields keep is true of a record that is read from a value with distinct
names. -/
theorem holds_readRecord {name : String} {blank record : σ} {json : Json} (hblank : p blank)
    (hjson : json.Distinct) (h : readRecord name fields blank json = .ok record) : p record := by
  rcases filled_of_readRecord h with ⟨members, rfl, hfold⟩ | ⟨items, rfl, hfill⟩
  · exact holds_foldlM_fillNamed hfields (distinct_object.mp hjson).2 hblank hfold
  · exact holds_fillInOrder hfields (distinct_array.mp hjson) hblank hfill

end Record

/-- A map has the keys of the object that it was read from, in order. -/
theorem keys_readMap {item : Decoder α} {members : List (String × Json)}
    {list : List (String × α)} (h : readMap item (.object members) = .ok list) :
    Ordered.keys list = Ordered.keys members := by
  rw [readMap] at h
  induction members generalizing list with
  | nil =>
    cases h
    rfl
  | cons member rest ih =>
    rw [List.mapM_cons] at h
    obtain ⟨first, hfirst, h⟩ := exists_of_bind_ok h
    obtain ⟨others, hrest, h⟩ := exists_of_bind_ok h
    obtain ⟨value, -, rfl⟩ := exists_of_map_ok hfirst
    cases h
    exact congrArg (_ :: ·) (ih hrest)

end Json

/-! ### Documents -/

namespace OpenApi

open Json

/-- Whether paths have distinct names, and the operations on each path distinct methods. -/
def Document.Placed (doc : Document) : Prop :=
  (Ordered.keys doc.paths).Nodup ∧
    ∀ path ∈ doc.paths, (path.2.operations.map Prod.fst).Nodup

/-- A path item that repeats no keys gets one operation for each verb at most. -/
private theorem nodup_methods_foldlM {members : List (String × Json)}
    (hmembers : (Ordered.keys members).Nodup) {before after : PathItem}
    (hbefore : (before.operations.map Prod.fst).Nodup)
    (hnew : ∀ method ∈ before.operations.map Prod.fst, method.key ∉ Ordered.keys members)
    (h : members.foldlM PathItem.fill before = .ok after) :
    (after.operations.map Prod.fst).Nodup := by
  induction members generalizing before with
  | nil =>
    cases h
    exact hbefore
  | cons member rest ih =>
    obtain ⟨hmember, hrest⟩ := List.nodup_cons.mp hmembers
    have hlater : ∀ method ∈ before.operations.map Prod.fst, method.key ∉ Ordered.keys rest :=
      fun method hmethod => mt (List.mem_cons_of_mem _) (hnew method hmethod)
    rw [List.foldlM_cons] at h
    obtain ⟨next, hnext, h⟩ := exists_of_bind_ok h
    rw [PathItem.fill] at hnext
    split_ifs at hnext with hshared
    · obtain ⟨shared, -, rfl⟩ := exists_of_map_ok hnext
      exact @ih hrest { before with parameters := shared } hbefore hlater h
    · split at hnext
      next method hmethod =>
        obtain ⟨operation, -, rfl⟩ := exists_of_map_ok hnext
        have hkey : method.key = member.1 := Method.ofKey?_eq_some_iff.mp hmethod
        -- A method whose member comes only now has no operation yet.
        have hfresh : method ∉ before.operations.map Prod.fst := fun hmem =>
          hnew method hmem (hkey ▸ List.mem_cons_self)
        refine ih hrest ?_ ?_ h
        · rw [List.map_append]
          refine List.nodup_append.mpr ⟨hbefore, List.nodup_singleton _, ?_⟩
          rintro old hold new hadded rfl
          have heq : old = method := List.mem_singleton.mp hadded
          exact hfresh (heq ▸ hold)
        · rw [List.map_append]
          refine List.forall_mem_append.mpr ⟨hlater, List.forall_mem_singleton.mpr ?_⟩
          exact hkey ▸ hmember
      · cases hnext
        exact ih hrest hbefore hlater h

private theorem nodup_methods {json : Json} (hjson : json.Distinct) {item : PathItem}
    (h : PathItem.read json = .ok item) : (item.operations.map Prod.fst).Nodup := by
  cases json with
  | object members =>
    have hblank : ((({} : PathItem).operations).map Prod.fst).Nodup := List.nodup_nil
    exact nodup_methods_foldlM (distinct_object.mp hjson).1 hblank
      (fun _ hmem => absurd hmem List.not_mem_nil) h
  | _ => cases h

private theorem placed_paths {json : Json} (hjson : json.Distinct)
    {paths : List (String × PathItem)} (h : readMap PathItem.read json = .ok paths)
    (doc : Document) : { doc with paths := paths : Document }.Placed := by
  cases json with
  | object members =>
    obtain ⟨hkeys, hmembers⟩ := distinct_object.mp hjson
    refine ⟨?_, fun path hpath => ?_⟩
    · exact (keys_readMap h).symm ▸ hkeys
    · obtain ⟨member, hmember, hread⟩ := exists_of_mem_mapM h hpath
      obtain ⟨item, hitem, rfl⟩ := exists_of_map_ok hread
      exact nodup_methods (hmembers member hmember) hitem
  | _ => cases h

/-- A document that repeats no keys has its operations at distinct places. -/
theorem Document.placed_ofJson {json : Json} (hjson : json.Distinct) {doc : Document}
    (h : Document.ofJson json = .ok doc) : doc.Placed := by
  obtain ⟨read, hread, rfl⟩ := exists_of_map_ok h
  have hfields : ∀ field ∈ Document.fields, field.Keeps Document.Placed := by
    refine List.forall_mem_cons.mpr ⟨?_, List.forall_mem_cons.mpr ⟨?_,
      List.forall_mem_singleton.mpr ?_⟩⟩
    · refine RecordField.keeps_of (fun _ _ before _ _ hbefore => ?_) _ _
      exact hbefore
    · exact RecordField.keeps_of (fun _ _ doc hjson hpaths _ => placed_paths hjson hpaths doc) _ _
    · refine RecordField.keeps_of (fun _ _ before _ _ hbefore => ?_) _ _
      exact hbefore
  have hblank : ({} : Document).Placed := ⟨List.nodup_nil, List.forall_mem_nil _⟩
  have hplaced : read.Placed := holds_readRecord hfields hblank hjson hread
  exact hplaced

/-- The place of an operation tells its path and its method. -/
private theorem pointer_injective : Function.Injective fun place : String × Method =>
    Reference.child (Reference.child "#/paths" place.1) place.2.key := by
  rintro ⟨path, method⟩ ⟨path', method'⟩ h
  obtain ⟨hpath, hkey⟩ := Reference.child_inj.mp h
  have hmethod : some method = some method' := by
    rw [← Method.ofKey?_key method, ← Method.ofKey?_key method', hkey]
  exact Prod.ext (Reference.child_inj.mp hpath).2 (Option.some.inj hmethod)

/-- No two operations of a document have one path and one method. -/
theorem Document.Placed.nodup_places {doc : Document} (h : doc.Placed) :
    ((Site.all doc).map fun site => (site.path, site.method)).Nodup := by
  simp only [Site.all, List.map_flatMap, List.map_map]
  refine List.nodup_flatMap.mpr ⟨fun path hpath => ?_, ?_⟩
  · refine List.Nodup.of_map Prod.snd ?_
    rw [List.map_map]
    exact h.2 path hpath
  · refine (List.pairwise_map.mp h.1).imp fun {path other} hne place hplace hother => ?_
    obtain ⟨_, -, rfl⟩ := List.mem_map.mp hplace
    obtain ⟨_, -, heq⟩ := List.mem_map.mp hother
    exact hne (congrArg Prod.fst heq).symm

/-- **Places.** No two operations of a document stand at one place. -/
theorem Document.Placed.nodup_pointers {doc : Document} (h : doc.Placed) :
    ((Site.all doc).map Site.pointer).Nodup := by
  have hpointers := h.nodup_places.map pointer_injective
  simp only [Site.all, List.map_flatMap, List.map_map] at hpointers ⊢
  exact hpointers

end OpenApi

end ClientGen
