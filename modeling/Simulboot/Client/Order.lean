import Simulboot.Client.Operations
import Simulboot.Client.Suspension

/-!
# The order of a strip

Three operations maintain the order field in three ways: `append` counts,
`insert_ordered` sorts and `remove` numbers anew. Mixed, they agree as long as
the orders on the strip leave no gap behind the count.
-/

set_option autoImplicit false
set_option linter.unusedSectionVars false

namespace Simulboot

open Library Library.Xml

variable {F : Type} [Zero F] [One F] [OfNat F 3] [Add F] [Sub F] [Div F] [Max F]
variable [LT F] [LE F] [DecidableLT F] [DecidableLE F]

namespace Strip

def Sorted (strip : Strip F) : Prop :=
  strip.surfaces.Pairwise Surface.Before

private theorem pairwise_before_iff {surfaces : List (Surface F)} :
    surfaces.Pairwise Surface.Before ↔ (surfaces.map Surface.order).Pairwise (· ≤ ·) := by
  rw [List.pairwise_map]
  rfl

private theorem pairwise_renumber {surfaces : List (Surface F)} :
    (renumber surfaces).Pairwise Surface.Before ↔ surfaces.length ≤ 2 ^ 32 := by
  rw [pairwise_before_iff, map_order_renumber, pairwise_range_ofNat]

theorem sorted_insertOrdered (strip : Strip F) (surface : Surface F) :
    (strip.insertOrdered surface).Sorted :=
  List.pairwise_insertionSort Surface.Before _

private theorem sorted_apply_still {strip : Strip F} (sorted : strip.Sorted) {op : Operation F}
    (places : strip.placedBy op = none) (stays : ∀ id, op ≠ .remove id) :
    (strip.apply op).Sorted := by
  have still := congrArg (List.map Surface.order) (map_still_apply places stays)
  rw [List.map_map, List.map_map] at still
  have orders : (strip.apply op).surfaces.map Surface.order =
      strip.surfaces.map Surface.order := still
  unfold Sorted at sorted ⊢
  rw [pairwise_before_iff] at sorted ⊢
  rwa [orders]

/-- A call that leaves the order of the strip intact: what it appends goes behind
all orders there are, and what it numbers anew can be counted. -/
def Admits (strip : Strip F) : Operation F → Prop
  | .append _ => ∀ s ∈ strip.surfaces, s.order.toNat < strip.surfaces.length % 2 ^ 32
  | .remove id => strip.hasSurface id = true → strip.surfaces.length ≤ 2 ^ 32 + 1
  | _ => True

/-- The order of an appended surface is greater than every other. -/
def AppendsLast (strip : Strip F) : Operation F → Prop
  | .append surface => ∀ s ∈ strip.surfaces, s.order < (strip.appended surface).order
  | _ => True

private theorem appendsLast_append_iff {strip : Strip F} {surface : Surface F} :
    strip.AppendsLast (.append surface) ↔ strip.Admits (.append surface) := by
  have order : (strip.appended surface).order.toNat = strip.surfaces.length % 2 ^ 32 :=
    UInt32.toNat_ofNat'
  unfold AppendsLast Admits
  simp only [UInt32.lt_iff_toNat_lt, order]

theorem sorted_append {strip : Strip F} (sorted : strip.Sorted) {surface : Surface F}
    (last : strip.AppendsLast (.append surface)) : (strip.apply (.append surface)).Sorted := by
  unfold Sorted
  rw [apply_append, List.pairwise_append]
  refine ⟨sorted, List.pairwise_singleton _ _, fun s member added new => ?_⟩
  obtain rfl := List.mem_singleton.mp new
  exact UInt32.le_of_lt (last s member)

theorem sorted_remove_iff {strip : Strip F} (sorted : strip.Sorted) {id : SurfaceId} :
    (strip.apply (.remove id)).Sorted ↔ strip.Admits (.remove id) := by
  simp only [apply, remove, Admits, hasSurface]
  cases found : strip.surfaces.find? fun s => s.id = id with
  | none =>
      have absent : (strip.surfaces.any fun s => s.id = id) = false := by
        rw [List.any_eq_false]
        exact List.find?_eq_none.mp found
      simp [sorted, absent]
  | some removed =>
      have member := List.mem_of_find?_eq_some found
      have named := List.find?_some found
      have present : (strip.surfaces.any fun s => s.id = id) = true :=
        List.any_eq_true.mpr ⟨removed, member, named⟩
      have size : (strip.surfaces.eraseP fun s => s.id = id).length =
          strip.surfaces.length - 1 :=
        List.length_eraseP_of_mem member named
      unfold Sorted
      rw [clampScroll_surfaces, pairwise_renumber, size, present]
      simp only [true_implies]
      omega

/-- On a sorted strip, the calls that keep it sorted and append behind all others
are those that it admits. -/
theorem sorted_apply_iff {strip : Strip F} (sorted : strip.Sorted) (op : Operation F) :
    (strip.apply op).Sorted ∧ strip.AppendsLast op ↔ strip.Admits op := by
  cases op with
  | append surface =>
      rw [← appendsLast_append_iff]
      exact ⟨And.right, fun last => ⟨sorted_append sorted last, last⟩⟩
  | insertOrdered surface =>
      exact ⟨fun _ => trivial, fun _ => ⟨strip.sorted_insertOrdered surface, trivial⟩⟩
  | remove id => exact (and_iff_left trivial).trans (sorted_remove_iff sorted)
  | _ =>
      exact ⟨fun _ => trivial, fun _ => ⟨sorted_apply_still sorted rfl (by simp), trivial⟩⟩

/-! ## Reading a checkpoint back -/

variable [RustFloat F] {sha256 : Sha256} {xml : QuickXml}

variable (sha256 xml) in
/-- The surfaces of a checkpoint come back as they stand on the strip. -/
def ReadBackInOrder (strip : Strip F) : Prop :=
  ∀ created, ∃ back : SessionImage F,
    SessionImage.fromXml xml ((imageFromStrip sha256 strip created).toXml sha256) = .ok back ∧
      back.surfaces.map (fun e => (e.id, e.order)) = strip.surfaces.map fun s => (s.id, s.order)

theorem Sorted.readBackInOrder (documented : Documented xml) (laws : RustFloat.Documented F)
    (readsNaN : RustFloat.ReadsNaN F) {strip : Strip F} (sorted : strip.Sorted) :
    strip.ReadBackInOrder sha256 xml := by
  intro created
  obtain ⟨pos, reads, _⟩ := laws.parse_displayUnsignedZero_total readsNaN strip.scrollPos
  refine ⟨_, fromXml_toXml_at documented laws sha256 (imageFromStrip sha256 strip created) reads, ?_⟩
  have read : ((strip.surfaces.map surfaceEntry).map SurfaceEntry.trimmed).Pairwise
      fun a b => a.order ≤ b.order := by
    rw [List.pairwise_map, List.pairwise_map]
    exact sorted
  change ((((strip.surfaces.map surfaceEntry).map SurfaceEntry.trimmed).insertionSort
    fun a b => a.order ≤ b.order).map fun e => (e.id, e.order)) = _
  rw [List.Pairwise.insertionSort_eq read, List.map_map, List.map_map]
  rfl

variable (sha256 xml) in
/-- A call after which position, order field and the order of a checkpoint that is
read back agree, and which appends behind all others. -/
structure KeepsOrder (strip : Strip F) (op : Operation F) : Prop where
  sorted : (strip.apply op).Sorted
  last : strip.AppendsLast op
  readBack : (strip.apply op).ReadBackInOrder sha256 xml

/-- The three agree throughout a run exactly where the strip admits every call. -/
theorem order_kept_iff (documented : Documented xml) (laws : RustFloat.Documented F)
    (readsNaN : RustFloat.ReadsNaN F) (viewportWidth viewportHeight : F)
    (ops : List (Operation F)) :
    Throughout (KeepsOrder sha256 xml) (new viewportWidth viewportHeight) ops ↔
      Throughout Admits (new viewportWidth viewportHeight) ops := by
  refine Throughout.iff_of_invariant Sorted (fun _ _ _ keeps => keeps.sorted) ?_ .nil
  intro strip op sorted
  rw [← sorted_apply_iff sorted op]
  constructor
  · intro keeps
    exact ⟨keeps.sorted, keeps.last⟩
  · intro ⟨after, last⟩
    exact ⟨after, last, after.readBackInOrder documented laws readsNaN⟩

/-! ## A gap in the orders -/

def restoredAt (order : UInt32) : Surface ℚ :=
  { surfaceFromAnnounce (announceOf "workshop".toList) (.v4 ⟨100, 0, 0, 1⟩ 7001) (new 1200 800) with
    order }

/-- Two surfaces are restored, the last one first, and a third is appended. -/
theorem order_kept_without_gap :
    Throughout (KeepsOrder sha256Digest Scanner.quickXml) (new (1200 : ℚ) 800)
      [.insertOrdered (restoredAt 1), .insertOrdered (restoredAt 0), .append (restoredAt 0)] := by
  refine (order_kept_iff Scanner.documented ExactFloat.documented (fun v nan => ?_) 1200 800 _).mpr
    ⟨trivial, trivial, fun s member => ?_, trivial⟩
  · cases nan
  · have placed : s = restoredAt 0 ∨ s = restoredAt 1 := by
      simpa [apply, insertOrdered, new, restoredAt] using member
    rcases placed with rfl | rfl <;> decide

/-- A surface restored at order 5 and one appended behind it. -/
theorem gap_breaks_order :
    ¬ Throughout (KeepsOrder sha256Digest Scanner.quickXml) (new (1200 : ℚ) 800)
      [.insertOrdered (restoredAt 5), .append (restoredAt 0)] := by
  intro ⟨_, appended, _⟩
  have last := appended.last (restoredAt 5) (List.mem_singleton_self _)
  exact absurd last (by decide)

end Strip

end Simulboot
