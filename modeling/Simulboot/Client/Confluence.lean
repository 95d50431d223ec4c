import Simulboot.Client.Geometry
import Simulboot.Client.Order

/-!
# Hosts that come back and disconnect in any order

Inserting surfaces of different orders and removing surfaces by id both lead to
a strip that the order of the calls has no part in.
-/

set_option autoImplicit false
set_option linter.unusedSectionVars false

namespace Simulboot

open Library

variable {F : Type}

/-! ## Numbering anew -/

/-- A surface but for its order. -/
def Surface.unordered (s : Surface F) : Surface F :=
  { s with order := 0 }

private theorem renumber_unordered (surfaces : List (Surface F)) :
    renumber (surfaces.map Surface.unordered) = renumber surfaces := by
  unfold renumber
  rw [List.zipIdx_map, List.map_map]
  rfl

private theorem unordered_renumber (surfaces : List (Surface F)) :
    (renumber surfaces).map Surface.unordered = surfaces.map Surface.unordered :=
  map_renumber (fun _ _ => rfl) surfaces

private theorem renumber_filter_renumber (kept : SurfaceId → Bool) (surfaces : List (Surface F)) :
    renumber ((renumber surfaces).filter fun s => kept s.id) =
      renumber (surfaces.filter fun s => kept s.id) := by
  have unordered : ∀ surfaces : List (Surface F),
      (surfaces.filter fun s => kept s.id).map Surface.unordered =
        (surfaces.map Surface.unordered).filter fun s => kept s.id := by
    intro surfaces
    rw [List.filter_map]
    rfl
  rw [← renumber_unordered, unordered, unordered_renumber, ← unordered, renumber_unordered]

private theorem eraseP_eq_filter {surfaces : List (Surface F)} (distinct : (surfaces.map Surface.id).Nodup)
    (id : SurfaceId) :
    surfaces.eraseP (fun s => s.id = id) = surfaces.filter fun s => s.id ∉ [id] := by
  induction surfaces with
  | nil => rfl
  | cons s rest ih =>
      obtain ⟨fresh, distinct⟩ := List.nodup_cons.mp distinct
      by_cases named : s.id = id
      · have others : ∀ other ∈ rest, other.id ≠ id := by
          intro other member same
          exact fresh (List.mem_map.mpr ⟨other, member, same.trans named.symm⟩)
        rw [List.eraseP_cons_of_pos (by simpa using named),
          List.filter_cons_of_neg (by simpa using named)]
        exact (List.filter_eq_self.mpr fun other member => by simpa using others other member).symm
      · rw [List.eraseP_cons_of_neg (by simpa using named),
          List.filter_cons_of_pos (by simpa using named), ih distinct]

namespace Strip

/-! ## Coming back -/

section

variable [Zero F] [One F] [OfNat F 3] [Add F] [Sub F] [Div F] [Max F]
variable [LT F] [LE F] [DecidableLT F] [DecidableLE F]

def insertAll (strip : Strip F) (surfaces : List (Surface F)) : Strip F :=
  surfaces.foldl insertOrdered strip

private theorem insertAll_eq {strip : Strip F} (sorted : strip.Sorted) (surfaces : List (Surface F)) :
    strip.insertAll surfaces =
      { strip with
        surfaces := (strip.surfaces ++ surfaces).insertionSort Surface.Before } := by
  have folded : ∀ given : List (Surface F), strip.insertAll given =
      { strip with
        surfaces := given.foldl (fun sorted s => (sorted ++ [s]).insertionSort Surface.Before)
          strip.surfaces } := by
    intro given
    induction given generalizing strip with
    | nil => rfl
    | cons surface rest ih => exact ih (strip.sorted_insertOrdered surface)
  rw [folded, ← StableSort.foldl_insertionSort, List.Pairwise.insertionSort_eq sorted]

private theorem eq_of_same_order {surfaces : List (Surface F)}
    (distinct : (surfaces.map Surface.order).Nodup) :
    ∀ a ∈ surfaces, ∀ b ∈ surfaces, a.Before b → b.Before a → a = b := by
  intro a left b right before behind
  exact List.inj_on_of_nodup_map distinct left right (UInt32.le_antisymm before behind)

/-- Surfaces of different orders end up in one place each, whatever the order in
which they are inserted. -/
theorem insertAll_perm {strip : Strip F} (sorted : strip.Sorted)
    {surfaces others : List (Surface F)}
    (distinct : ((strip.surfaces ++ surfaces).map Surface.order).Nodup)
    (perm : others.Perm surfaces) :
    strip.insertAll others = strip.insertAll surfaces ∧
      (strip.insertAll surfaces).Sorted ∧
      (strip.insertAll surfaces).surfaces.Perm (strip.surfaces ++ surfaces) ∧
      (strip.insertAll surfaces).focus = strip.focus ∧
      (strip.insertAll surfaces).scrollPos = strip.scrollPos := by
  have once := StableSort.insertionSort_eq_of_perm (perm.symm.append_left strip.surfaces)
    (eq_of_same_order distinct)
  rw [insertAll_eq sorted, insertAll_eq sorted]
  refine ⟨?_, List.pairwise_insertionSort _ _, List.perm_insertionSort _ _, rfl, rfl⟩
  rw [once]

end

theorem restoredAt_insertAll :
    let strip : Strip ℚ := { new 1200 800 with surfaces := [restoredAt 3] }
    strip.insertAll [restoredAt 1, restoredAt 5] = strip.insertAll [restoredAt 5, restoredAt 1] ∧
      (strip.insertAll [restoredAt 5, restoredAt 1]).Sorted := by
  intro strip
  have sorted : strip.Sorted := List.pairwise_singleton _ _
  have distinct : ((strip.surfaces ++ [restoredAt 5, restoredAt 1]).map Surface.order).Nodup := by
    decide
  obtain ⟨same, after, _⟩ := insertAll_perm sorted distinct (List.Perm.swap _ _ _)
  exact ⟨same, after⟩

/-! ## Disconnecting -/

section

variable [Field F] [LinearOrder F] [IsStrictOrderedRing F]

def removeAll (strip : Strip F) (ids : List SurfaceId) : Strip F :=
  ids.foldl (fun strip id => (strip.remove id).2) strip

def survivors (strip : Strip F) (ids : List SurfaceId) : List (Surface F) :=
  strip.surfaces.filter fun s => s.id ∉ ids

/-- Some of the ids are on the strip. -/
def Meets (strip : Strip F) (ids : List SurfaceId) : Prop :=
  ∃ s ∈ strip.surfaces, s.id ∈ ids

instance (strip : Strip F) (ids : List SurfaceId) : Decidable (strip.Meets ids) :=
  inferInstanceAs (Decidable (∃ s ∈ strip.surfaces, s.id ∈ ids))

/-- The strip without the surfaces of a list of ids, taken off at once. -/
def without (strip : Strip F) (ids : List SurfaceId) : Strip F :=
  if strip.Meets ids then
    { strip with
      surfaces := renumber (strip.survivors ids)
      scrollPos :=
        min strip.scrollPos
          (max (((strip.survivors ids).map Surface.width).sum - strip.viewportWidth) 0)
      focus := strip.focus.filter fun id => !(strip.hasSurface id && decide (id ∈ ids)) }
  else strip

private theorem meets_congr {strip : Strip F} {ids others : List SurfaceId}
    (same : ∀ s ∈ strip.surfaces, s.id ∈ ids ↔ s.id ∈ others) :
    strip.Meets ids ↔ strip.Meets others := by
  constructor
  · intro ⟨s, member, named⟩
    exact ⟨s, member, (same s member).mp named⟩
  · intro ⟨s, member, named⟩
    exact ⟨s, member, (same s member).mpr named⟩

private theorem without_congr {strip : Strip F} {ids others : List SurfaceId}
    (same : ∀ s ∈ strip.surfaces, s.id ∈ ids ↔ s.id ∈ others) :
    strip.without ids = strip.without others := by
  have survivors : strip.survivors ids = strip.survivors others := by
    refine List.filter_congr fun s member => ?_
    rw [decide_eq_decide, same s member]
  have focus : (fun id => !(strip.hasSurface id && decide (id ∈ ids))) =
      fun id => !(strip.hasSurface id && decide (id ∈ others)) := by
    funext id
    cases here : strip.hasSurface id with
    | false => rfl
    | true =>
        obtain ⟨s, member, rfl⟩ := List.mem_map.mp (hasSurface_iff.mp here)
        simp only [same s member]
  unfold without
  simp only [meets_congr same, survivors, focus]

/-- A strip of distinct surfaces that have a width, scrolled to the right. -/
structure Standing (strip : Strip F) : Prop where
  distinct : (strip.surfaces.map Surface.id).Nodup
  widths : ∀ s ∈ strip.surfaces, 0 < s.width
  scrolled : 0 ≤ strip.scrollPos

private theorem clamp_eq_min {v high : F} (above : 0 ≤ v) :
    clamp v 0 high = min v high := by
  unfold clamp
  rw [if_neg (not_lt.mpr above)]
  by_cases beyond : high < v
  · rw [if_pos beyond, min_eq_right beyond.le]
  · rw [if_neg beyond, min_eq_left (not_lt.mp beyond)]

private theorem Standing.remove_eq {strip : Strip F} (standing : strip.Standing) (id : SurfaceId) :
    (strip.remove id).2 = strip.without [id] := by
  unfold remove
  cases found : strip.surfaces.find? fun s => s.id = id with
  | none =>
      have absent : ¬ strip.Meets [id] := by
        intro ⟨s, member, named⟩
        exact List.find?_eq_none.mp found s member (by simpa using named)
      unfold without
      rw [if_neg absent]
  | some removed =>
      have member := List.mem_of_find?_eq_some found
      have named : removed.id = id := by simpa using List.find?_some found
      have present : strip.Meets [id] := ⟨removed, member, by simp [named]⟩
      have focus : (if strip.focus = some id then none else strip.focus) =
          strip.focus.filter fun other => !(strip.hasSurface other && decide (other ∈ [id])) := by
        have here : strip.hasSurface id = true :=
          hasSurface_iff.mpr (List.mem_map.mpr ⟨removed, member, named⟩)
        cases strip.focus with
        | none => rfl
        | some other =>
            by_cases same : other = id
            · simp [Option.filter_some, same, here]
            · simp [Option.filter_some, same]
      unfold without clampScroll maxScroll
      rw [if_pos present, eraseP_eq_filter standing.distinct, focus, contentWidth_eq_sum,
        map_renumber fun _ _ => rfl, clamp_eq_min standing.scrolled]
      rfl

private theorem survivors_append (strip : Strip F) (ids others : List SurfaceId) :
    strip.survivors (ids ++ others) = (strip.survivors ids).filter fun s => s.id ∉ others := by
  unfold survivors
  rw [List.filter_filter]
  refine List.filter_congr fun s _ => ?_
  simp only [List.mem_append, not_or, Bool.decide_and, Bool.and_comm]

private theorem Standing.survivors_width_le {strip : Strip F} (standing : strip.Standing)
    (ids others : List SurfaceId) :
    ((strip.survivors (ids ++ others)).map Surface.width).sum ≤
      ((strip.survivors ids).map Surface.width).sum := by
  rw [survivors_append]
  refine (List.filter_sublist.map Surface.width).sum_le_sum fun width member => ?_
  obtain ⟨s, survives, rfl⟩ := List.mem_map.mp member
  exact (standing.widths s (List.mem_of_mem_filter survives)).le

private theorem Standing.without {strip : Strip F} (standing : strip.Standing) (ids : List SurfaceId) :
    (strip.without ids).Standing := by
  unfold Strip.without
  split
  · have kept := List.filter_sublist (p := fun s : Surface F => s.id ∉ ids) (l := strip.surfaces)
    refine ⟨?_, fun s member => ?_, le_min standing.scrolled (le_max_right _ _)⟩
    · rw [map_renumber fun _ _ => rfl]
      exact (kept.map Surface.id).nodup standing.distinct
    · have width := List.mem_map_of_mem (f := Surface.width) member
      rw [map_renumber fun _ _ => rfl] at width
      obtain ⟨same, survives, equal⟩ := List.mem_map.mp width
      rw [← equal]
      exact standing.widths same (kept.subset survives)
  · exact standing

section

variable {strip : Strip F} {ids : List SurfaceId} (met : strip.Meets ids)

include met

private theorem without_of_meets :
    strip.without ids =
      { strip with
        surfaces := renumber (strip.survivors ids)
        scrollPos :=
          min strip.scrollPos
            (max (((strip.survivors ids).map Surface.width).sum - strip.viewportWidth) 0)
        focus := strip.focus.filter fun id => !(strip.hasSurface id && decide (id ∈ ids)) } :=
  if_pos met

private theorem surfaces_without : (strip.without ids).surfaces = renumber (strip.survivors ids) := by
  rw [without_of_meets met]

private theorem renumber_survivors_without (others : List SurfaceId) :
    renumber ((strip.without ids).survivors others) =
      renumber (strip.survivors (ids ++ others)) := by
  rw [survivors, surfaces_without met, renumber_filter_renumber fun id => id ∉ others,
    survivors_append]

private theorem hasSurface_without (id : SurfaceId) :
    (strip.without ids).hasSurface id = (strip.hasSurface id && decide (id ∉ ids)) := by
  rw [Bool.eq_iff_iff, hasSurface_iff, surfaces_without met, map_renumber fun _ _ => rfl,
    Bool.and_eq_true, hasSurface_iff]
  simp only [survivors, List.mem_map, List.mem_filter, decide_eq_true_eq]
  constructor
  · rintro ⟨s, ⟨member, survives⟩, rfl⟩
    exact ⟨⟨s, member, rfl⟩, survives⟩
  · rintro ⟨⟨s, member, rfl⟩, survives⟩
    exact ⟨s, ⟨member, survives⟩, rfl⟩

end

/-- Taking off some and then others is taking off all of them: the second number
and the second clamp are the last, and the clamp that counts. -/
theorem Standing.without_without {strip : Strip F} (standing : strip.Standing)
    (ids others : List SurfaceId) :
    (strip.without ids).without others = strip.without (ids ++ others) := by
  by_cases first : strip.Meets ids
  · by_cases second : (strip.without ids).Meets others
    · have all : strip.Meets (ids ++ others) := by
        obtain ⟨s, member, named⟩ := first
        exact ⟨s, member, List.mem_append_left others named⟩
      have numbered := renumber_survivors_without first others
      have widths : ((strip.without ids).survivors others).map Surface.width =
          (strip.survivors (ids ++ others)).map Surface.width := by
        rw [← map_renumber (g := Surface.width) (fun _ _ => rfl), numbered,
          map_renumber fun _ _ => rfl]
      have narrower := max_le_max_right 0
        (sub_le_sub_right (standing.survivors_width_le ids others) strip.viewportWidth)
      have focus : (strip.focus.filter fun id => !(strip.hasSurface id && decide (id ∈ ids))).filter
            (fun id => !((strip.without ids).hasSurface id && decide (id ∈ others))) =
          strip.focus.filter fun id => !(strip.hasSurface id && decide (id ∈ ids ++ others)) := by
        rw [Option.filter_filter]
        congr 1
        funext id
        rw [hasSurface_without first]
        by_cases here : id ∈ ids <;> by_cases there : id ∈ others <;> simp [here, there]
      rw [without_of_meets second, numbered, widths, without_of_meets all, ← focus,
        without_of_meets first]
      simp only [min_assoc, min_eq_right narrower]
    · refine (if_neg second).trans (without_congr fun s member => ?_)
      rw [List.mem_append]
      refine ⟨.inl, fun named => by_contra fun elsewhere => second ?_⟩
      have here : (strip.without ids).hasSurface s.id = true := by
        rw [hasSurface_without first, decide_eq_true elsewhere, Bool.and_true, hasSurface_iff]
        exact List.mem_map_of_mem member
      obtain ⟨same, stays, equal⟩ := List.mem_map.mp (hasSurface_iff.mp here)
      exact ⟨same, stays, equal ▸ named.resolve_left elsewhere⟩
  · have idle : strip.without ids = strip := if_neg first
    rw [idle]
    refine without_congr fun s member => ?_
    rw [List.mem_append]
    exact ⟨.inr, fun named => named.resolve_left fun here => first ⟨s, member, here⟩⟩

private theorem Standing.removeAll_eq {strip : Strip F} (standing : strip.Standing)
    (ids : List SurfaceId) : strip.removeAll ids = strip.without ids := by
  induction ids generalizing strip with
  | nil =>
      have absent : ¬ strip.Meets [] := by simp [Meets]
      unfold Strip.without
      rw [if_neg absent]
      rfl
  | cons id rest ih =>
      calc strip.removeAll (id :: rest)
          = (strip.without [id]).removeAll rest := by rw [← standing.remove_eq id]; rfl
        _ = (strip.without [id]).without rest := ih (standing.without [id])
        _ = strip.without (id :: rest) := standing.without_without [id] rest

/-- Whatever the order in which surfaces are removed, the same strip is left: the
survivors numbered from zero if anything was removed, the focus unless it was on one
that was, and the scroll position as far as the last content reaches. -/
theorem removeAll_perm {strip : Strip F} (distinct : (strip.surfaces.map Surface.id).Nodup)
    (widths : ∀ s ∈ strip.surfaces, 0 < s.width) (scrolled : strip.Scrolled)
    {ids others : List SurfaceId} (perm : others.Perm ids) :
    let left := strip.removeAll ids
    strip.removeAll others = left ∧
      left.surfaces =
        (if strip.Meets ids then renumber (strip.survivors ids) else strip.surfaces) ∧
      (strip.Meets ids → left.surfaces.map Surface.order =
        (List.range left.surfaces.length).map UInt32.ofNat) ∧
      left.focus = (strip.focus.filter fun id => !(strip.hasSurface id && decide (id ∈ ids))) ∧
      left.scrollPos = min strip.scrollPos left.maxScroll := by
  have standing : strip.Standing := ⟨distinct, widths, scrolled.1⟩
  have same : strip.without others = strip.without ids :=
    without_congr fun s _ => perm.mem_iff
  intro left
  have removed : left = strip.without ids := standing.removeAll_eq ids
  rw [standing.removeAll_eq others, same, removed]
  refine ⟨rfl, ?_⟩
  by_cases met : strip.Meets ids
  · rw [if_pos met, without_of_meets met]
    refine ⟨rfl, fun _ => ?_, rfl, ?_⟩
    · rw [map_order_renumber]
      simp [renumber]
    · unfold maxScroll
      rw [contentWidth_eq_sum, map_renumber fun _ _ => rfl]
  · have idle : strip.without ids = strip := if_neg met
    rw [idle, if_neg met]
    refine ⟨rfl, fun some => absurd some met, ?_, (min_eq_left scrolled.2).symm⟩
    cases strip.focus with
    | none => rfl
    | some id =>
        have elsewhere : strip.hasSurface id = true → id ∉ ids := by
          intro here named
          obtain ⟨s, member, rfl⟩ := List.mem_map.mp (hasSurface_iff.mp here)
          exact met ⟨s, member, named⟩
        cases here : strip.hasSurface id with
        | false => simp [Option.filter_some, here]
        | true => simp [Option.filter_some, elsewhere here]

end

/-- Four surfaces in slots apart, scrolled past the first two; the second has the focus. -/
def rowStrip : Strip ℚ :=
  { surfaces :=
      [sampleSurface 3 1000, { sampleSurface 5 1000 with id := numberedId 8 },
        { sampleSurface 6 900 with id := numberedId 9 },
        { sampleSurface 9 800 with id := numberedId 10 }]
    scrollPos := 2100, viewportWidth := 1200, viewportHeight := 800
    focus := some (numberedId 8) }

/-- Two surfaces are left, which takes the scroll position back. -/
theorem rowStrip_removeAll :
    rowStrip.removeAll [sampleAnnounce.id, numberedId 9] =
        rowStrip.removeAll [numberedId 9, sampleAnnounce.id] ∧
      (rowStrip.removeAll [sampleAnnounce.id, numberedId 9]).surfaces.length = 2 := by
  have distinct : (rowStrip.surfaces.map Surface.id).Nodup := by decide
  have widths : ∀ s ∈ rowStrip.surfaces, 0 < s.width := by
    simp [rowStrip, sampleSurface]
  have scrolled : rowStrip.Scrolled := by
    refine ⟨by norm_num [rowStrip], ?_⟩
    unfold maxScroll
    rw [contentWidth_eq_sum]
    norm_num [rowStrip, sampleSurface]
  exact ⟨(removeAll_perm distinct widths scrolled (List.Perm.swap _ _ _)).1, by decide +kernel⟩

end Strip

end Simulboot
