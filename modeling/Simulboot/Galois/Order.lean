import Simulboot.Coefficients.Order
import Simulboot.Galois.RoundTrip

/-!
# The order of v1 images

`leq` searches one image for the coefficients of the other, while the canonical
form lists them surface by surface. Listed that way, both compare two images
position by position.
-/

set_option autoImplicit false

namespace Simulboot

open Library

variable {F D : Type} [Zero F] [RustFloat F] [Zero D] [RustFloat D]

namespace SessionImageV1

omit [Zero F] [RustFloat F] in
/-- An image of distinct surfaces that passes `validate` and holds no NaN bound. -/
structure WellFormed (img : SessionImageV1 F D) : Prop where
  valid : img.validate = .ok ()
  distinct : (img.base.surfaces.map SurfaceEntry.id).Nodup
  numbers : ∀ sc ∈ img.coefficients, sc.coefficient.Numbers

section

omit [Zero F] [RustFloat F]

namespace WellFormed

variable {img : SessionImageV1 F D} (wellFormed : img.WellFormed)

include wellFormed

theorem mem_relisted {sc : SurfaceCoefficient D} : sc ∈ img.relisted ↔ sc ∈ img.coefficients :=
  (relisted_perm wellFormed.valid wellFormed.distinct).mem_iff

theorem relisted_nodup : (img.relisted.map SurfaceCoefficient.surfaceRef).Nodup := by
  rw [relisted_refs wellFormed.valid]
  exact wellFormed.distinct

theorem coefficientFor_eq_some {id : SurfaceId} {coeff : Coefficient D} :
    img.coefficientFor id = some coeff ↔
      ∃ sc ∈ img.relisted, sc.surfaceRef = id ∧ sc.coefficient = coeff := by
  unfold coefficientFor
  rw [Option.map_eq_some_iff]
  constructor
  · intro ⟨sc, found, same⟩
    exact ⟨sc, wellFormed.mem_relisted.mpr (List.mem_of_find?_eq_some found),
      by simpa using List.find?_some found, same⟩
  · intro ⟨sc, member, named, same⟩
    have inside := wellFormed.mem_relisted.mp member
    have present : (img.coefficients.find? fun c => c.surfaceRef = id).isSome = true := by
      rw [List.find?_isSome]
      exact ⟨sc, inside, decide_eq_true named⟩
    obtain ⟨first, found⟩ := Option.isSome_iff_exists.mp present
    have firstNamed : first.surfaceRef = id := by simpa using List.find?_some found
    have listed := wellFormed.mem_relisted.mpr (List.mem_of_find?_eq_some found)
    obtain rfl := List.inj_on_of_nodup_map wellFormed.relisted_nodup listed member
      (firstNamed.trans named.symm)
    exact ⟨first, found, same⟩

end WellFormed

end

/-! ## Reading the coefficients of a canonical form -/

/-- A text that an attribute can quote. -/
private abbrev Plain : Type := { text : Str // '"' ∉ text }

private abbrev Entry : Type :=
  SurfaceId × List (Plain × Plain) × Confidentiality × Integrity × Linearity

private def printPath (path : Plain × Plain) : Str :=
  "<c:delay-path hi=\"".toList ++
    ((path.1.val ++ "\" lo=\"".toList) ++ (path.2.val ++ "\"/>".toList))

private def printEntry (entry : Entry) : Str :=
  "<c:surface-coefficient surface-ref=\"".toList ++
    ((surfaceIdToStr entry.1 ++ "\"><c:timing>".toList) ++
    ((entry.2.1.flatMap printPath ++ "</c:timing><c:security confidentiality=\"".toList) ++
    ((entry.2.2.1.toStr ++ "\" integrity=\"".toList) ++
    ((entry.2.2.2.1.toStr ++ "\"/><c:linearity count=\"".toList) ++
      (entry.2.2.2.2.toStr ++ "\"/></c:surface-coefficient>".toList)))))

private theorem readable_path : UniquelyReadable printPath := by
  have text : ∀ close : Str, close.head? = some '"' →
      UniquelyReadable fun text : Plain => text.val ++ close := fun _ starts =>
    .closedBy starts Subtype.val_injective fun text => text.property
  have path := ((text "\" lo=\"".toList rfl).pair (text "\"/>".toList rfl)).openedBy
    "<c:delay-path hi=\"".toList
  refine path.record id Function.injective_id fun path => ?_
  unfold printPath
  rfl

private theorem readable_entry : UniquelyReadable printEntry := by
  have paths : UniquelyReadable fun paths : List (Plain × Plain) =>
      paths.flatMap printPath ++ "</c:timing><c:security confidentiality=\"".toList := by
    refine UniquelyReadable.many readable_path ?_
    intro path after rest same
    have second := congrArg (fun text => text[1]?) same
    unfold printPath at second
    simp only [List.append_assoc] at second
    rw [List.getElem?_append_left (by decide), List.getElem?_append_left (by decide)] at second
    exact absurd second (by decide)
  have ref : ∀ close : Str, close.head? = some '"' →
      UniquelyReadable fun id : SurfaceId => surfaceIdToStr id ++ close := fun _ starts =>
    .closedBy starts surfaceIdToStr_injective fun id => (surfaceIdToStr_delimiters id).1
  have confidentiality : ∀ close : Str, close.head? = some '"' →
      UniquelyReadable fun label : Confidentiality => label.toStr ++ close := fun _ starts =>
    .closedBy starts Confidentiality.toStr_injective fun label => label.toStr_delimiters.1
  have integrity : ∀ close : Str, close.head? = some '"' →
      UniquelyReadable fun label : Integrity => label.toStr ++ close := fun _ starts =>
    .closedBy starts Integrity.toStr_injective fun label => label.toStr_delimiters.1
  have count : ∀ close : Str, close.head? = some '"' →
      UniquelyReadable fun count : Linearity => count.toStr ++ close := fun _ starts =>
    .closedBy starts Linearity.toStr_injective fun count => count.toStr_delimiters.1
  have element := ((ref "\"><c:timing>".toList rfl).pair (paths.pair
    ((confidentiality "\" integrity=\"".toList rfl).pair
      ((integrity "\"/><c:linearity count=\"".toList rfl).pair
        (count "\"/></c:surface-coefficient>".toList rfl))))).openedBy
          "<c:surface-coefficient surface-ref=\"".toList
  refine element.record id Function.injective_id fun entry => ?_
  unfold printEntry
  rfl

section

omit [Zero F] [RustFloat F]

variable (delayLaws : RustFloat.Documented D)

include delayLaws

private def entry (sc : SurfaceCoefficient D) : Entry :=
  (sc.surfaceRef,
    sc.coefficient.timing.map (fun iv =>
      (⟨iv.hi.toStr, (Bound.toStr_delimiters delayLaws iv.hi).1⟩,
        ⟨iv.lo.toStr, (Bound.toStr_delimiters delayLaws iv.lo).1⟩)),
    sc.coefficient.confidentiality, sc.coefficient.integrity, sc.coefficient.linearity)

private theorem printEntry_entry (sc : SurfaceCoefficient D) :
    printEntry (entry delayLaws sc) =
      writeSurfaceCoefficient false sc.surfaceRef sc.coefficient := by
  have paths : ∀ timing : List (Interval D),
      (timing.map fun iv => ((⟨iv.hi.toStr, (Bound.toStr_delimiters delayLaws iv.hi).1⟩ : Plain),
        (⟨iv.lo.toStr, (Bound.toStr_delimiters delayLaws iv.lo).1⟩ : Plain))).flatMap printPath =
        timing.flatMap (writeDelayPath false) := by
    intro timing
    rw [List.flatMap_map]
    refine List.flatMap_congr fun iv _ => ?_
    unfold printPath
    simp [writeDelayPath, coeffName, coeffPrefix, indent, newline]
  unfold printEntry entry
  rw [paths]
  simp [writeSurfaceCoefficient, coeffName, coeffPrefix, indent, newline]

private theorem entry_eq_iff {a b : SurfaceCoefficient D} :
    entry delayLaws a = entry delayLaws b ↔
      a.surfaceRef = b.surfaceRef ∧ a.coefficient.quoted = b.coefficient.quoted := by
  have paths : ∀ left right : List (Interval D),
      (left.map fun iv => ((⟨iv.hi.toStr, (Bound.toStr_delimiters delayLaws iv.hi).1⟩ : Plain),
        (⟨iv.lo.toStr, (Bound.toStr_delimiters delayLaws iv.lo).1⟩ : Plain))) =
        (right.map fun iv => (⟨iv.hi.toStr, (Bound.toStr_delimiters delayLaws iv.hi).1⟩,
          ⟨iv.lo.toStr, (Bound.toStr_delimiters delayLaws iv.lo).1⟩)) ↔
      (left.map fun iv => (iv.hi.toStr, iv.lo.toStr)) =
        right.map fun iv => (iv.hi.toStr, iv.lo.toStr) := by
    intro left right
    rw [← Pointwise.map_eq_iff, ← Pointwise.map_eq_iff]
    simp only [Prod.mk.injEq, Subtype.mk.injEq]
  unfold entry Coefficient.quoted
  simp only [Prod.mk.injEq, Coefficient.Quoted.mk.injEq, paths]

omit delayLaws in
private theorem writeCoefficients_relisted (img : SessionImageV1 F D) :
    img.writeCoefficients false =
      "<c:coefficients xmlns:c=\"".toList ++ coefficientsNamespace ++ "\">".toList ++
        (img.relisted.flatMap fun sc => writeSurfaceCoefficient false sc.surfaceRef sc.coefficient) ++
        "</c:coefficients>".toList := by
  unfold writeCoefficients
  rw [written_relisted]
  simp [coeffName, coeffPrefix, indent, newline]

theorem writeCoefficients_iff {x y : SessionImageV1 F D} :
    x.writeCoefficients false = y.writeCoefficients false ↔
      List.Forall₂ (fun a b => a.surfaceRef = b.surfaceRef ∧
        a.coefficient.quoted = b.coefficient.quoted) x.relisted y.relisted := by
  have printed : ∀ listed : List (SurfaceCoefficient D),
      (listed.flatMap fun sc => writeSurfaceCoefficient false sc.surfaceRef sc.coefficient) =
        (listed.map (entry delayLaws)).flatMap printEntry := by
    intro listed
    rw [List.flatMap_map]
    exact List.flatMap_congr fun sc _ => (printEntry_entry delayLaws sc).symm
  have nonempty : ∀ entry : Entry, printEntry entry ≠ [] := by
    intro entry
    unfold printEntry
    exact List.append_ne_nil_of_left_ne_nil (by decide) _
  simp only [← entry_eq_iff delayLaws, Pointwise.map_eq_iff]
  rw [writeCoefficients_relisted, writeCoefficients_relisted, List.append_left_inj,
    List.append_right_inj, printed, printed,
    (readable_entry.flatMap_injective nonempty).eq_iff]

end

/-! ## Comparing position by position -/

variable (laws : RustFloat.Documented F)

include laws

/-- Images of one base list the same surfaces. -/
theorem relisted_keys {x y : SessionImageV1 F D} (left : x.WellFormed) (right : y.WellFormed)
    (bases : x.base.canonicalBytes = y.base.canonicalBytes) :
    x.relisted.map SurfaceCoefficient.surfaceRef = y.relisted.map SurfaceCoefficient.surfaceRef := by
  rw [relisted_refs left.valid, relisted_refs right.valid,
    ((canonicalBytes_eq_iff_content laws).mp bases).2.2.1]

theorem leq_iff {x y : SessionImageV1 F D} (left : x.WellFormed) (right : y.WellFormed) :
    x.leq y = true ↔ x.base.canonicalBytes = y.base.canonicalBytes ∧
      List.Forall₂ (fun a b => a.coefficient.leq b.coefficient = true) x.relisted y.relisted := by
  have based : x.baseEq y = true ↔ x.base.canonicalBytes = y.base.canonicalBytes :=
    decide_eq_true_iff
  by_cases bases : x.base.canonicalBytes = y.base.canonicalBytes
  · have keys := relisted_keys laws left right bases
    have size : x.coefficients.length = y.coefficients.length := by
      rw [(validate_eq_ok.mp left.valid).1, (validate_eq_ok.mp right.valid).1,
        ((canonicalBytes_eq_iff_content laws).mp bases).2.2.1]
    have met : ∀ sc : SurfaceCoefficient D,
        (y.coefficientFor sc.surfaceRef).any (fun o => sc.coefficient.leq o) = true ↔
          ∃ o ∈ y.relisted, o.surfaceRef = sc.surfaceRef ∧
            sc.coefficient.leq o.coefficient = true := by
      intro sc
      rw [Option.any_eq_true]
      constructor
      · intro ⟨coeff, found, below⟩
        obtain ⟨o, member, named, rfl⟩ := right.coefficientFor_eq_some.mp found
        exact ⟨o, member, named, below⟩
      · intro ⟨o, member, named, below⟩
        exact ⟨o.coefficient, right.coefficientFor_eq_some.mpr ⟨o, member, named, rfl⟩, below⟩
    unfold leq
    rw [based.mpr bases, size]
    simp only [Bool.not_true, Bool.false_eq_true, ↓reduceIte, beq_self_eq_true, Bool.and_true,
      List.all_eq_true, met, bases, true_and]
    rw [← Pointwise.forall_exists_iff keys left.relisted_nodup]
    exact forall_congr' fun sc => by rw [left.mem_relisted]
  · have apart : x.baseEq y = false := Bool.eq_false_iff.mpr fun equal => bases (based.mp equal)
    unfold leq
    rw [apart]
    simp [bases]

variable (delayLaws : RustFloat.Documented D)

include delayLaws

/-- The canonical form shows the base and each surface's coefficient. -/
theorem canonicalBytes_iff {x y : SessionImageV1 F D} (left : x.WellFormed)
    (right : y.WellFormed) :
    x.canonicalBytes = y.canonicalBytes ↔ x.base.canonicalBytes = y.base.canonicalBytes ∧
      List.Forall₂ (fun a b => a.coefficient.quoted = b.coefficient.quoted)
        x.relisted y.relisted := by
  unfold canonicalBytes
  rw [utf8_injective.eq_iff, writeDocWithId_extra_iff laws, writeCoefficients_iff delayLaws]
  refine and_congr_right fun bases => ?_
  have keys := Pointwise.map_eq_iff.mpr (relisted_keys laws left right bases)
  constructor
  · intro related
    exact related.imp fun _ _ => And.right
  · intro quoted
    exact keys.mp (fun _ _ => And.intro) quoted

variable (order : RustFloat.Ordered D)

include order

/-- Images that lie below each other are those of one canonical form. -/
theorem leq_antisymm_iff {x y : SessionImageV1 F D} (left : x.WellFormed)
    (right : y.WellFormed) :
    x.leq y = true ∧ y.leq x = true ↔ x.canonicalBytes = y.canonicalBytes := by
  have numbers : ∀ sc ∈ x.relisted, sc.coefficient.Numbers := fun sc member =>
    left.numbers sc (mem_of_mem_relisted member)
  have alike : List.Forall₂ (fun a b => a.coefficient.leq b.coefficient = true ∧
        b.coefficient.leq a.coefficient = true) x.relisted y.relisted ↔
      List.Forall₂ (fun a b => a.coefficient.quoted = b.coefficient.quoted)
        x.relisted y.relisted :=
    Pointwise.congr_left numbers fun a b number =>
      Coefficient.leq_antisymm_iff delayLaws order number
  rw [leq_iff laws left right, leq_iff laws right left,
    canonicalBytes_iff laws delayLaws left right, ← alike, ← Pointwise.and_flip_iff]
  constructor
  · intro ⟨⟨bases, below⟩, _, above⟩
    exact ⟨bases, below, above⟩
  · intro ⟨bases, below, above⟩
    exact ⟨⟨bases, below⟩, bases.symm, above⟩

/-- The order of valid images is a partial order up to the canonical form. -/
theorem leq_partialOrder :
    (∀ x : SessionImageV1 F D, x.WellFormed → x.leq x = true) ∧
      (∀ x y z : SessionImageV1 F D, x.WellFormed → y.WellFormed → z.WellFormed →
        x.leq y = true → y.leq z = true → x.leq z = true) ∧
      ∀ x y : SessionImageV1 F D, x.WellFormed → y.WellFormed →
        (x.leq y = true ∧ y.leq x = true ↔ x.canonicalBytes = y.canonicalBytes) := by
  refine ⟨fun x wellFormed => ?_, fun x y z left middle right below above => ?_,
    fun x y left right => leq_antisymm_iff laws delayLaws order left right⟩
  · refine (leq_iff laws wellFormed wellFormed).mpr ⟨rfl, List.forall₂_same.mpr ?_⟩
    intro sc member
    exact Coefficient.leq_refl delayLaws (wellFormed.numbers sc (mem_of_mem_relisted member))
  · obtain ⟨bases, first⟩ := (leq_iff laws left middle).mp below
    obtain ⟨later, second⟩ := (leq_iff laws middle right).mp above
    refine (leq_iff laws left right).mpr ⟨bases.trans later, ?_⟩
    exact Pointwise.trans first second fun _ _ _ => Coefficient.leq_trans delayLaws order

end SessionImageV1

/-! ## Images at the top -/

section

omit [Zero F] [RustFloat F]

omit [Zero D] [RustFloat D] in
/-- What `gamma` builds is valid where no two surfaces share an id. -/
theorem validate_gamma_iff {base : SessionImage F} :
    (gamma (D := D) base).validate = .ok () ↔ (base.surfaces.map SurfaceEntry.id).Nodup := by
  have refs : (gamma (D := D) base).coefficients.map SurfaceCoefficient.surfaceRef =
      base.surfaces.map SurfaceEntry.id := by
    unfold gamma
    rw [List.map_map]
    rfl
  rw [SessionImageV1.validate_eq_ok, refs, List.nodup_iff_count_eq_one]
  constructor
  · intro ⟨_, once⟩ id member
    obtain ⟨surf, inside, rfl⟩ := List.mem_map.mp member
    exact once surf inside
  · intro once
    exact ⟨List.length_map _, fun surf inside => once _ (List.mem_map_of_mem inside)⟩

theorem gamma_wellFormed {base : SessionImage F}
    (distinct : (base.surfaces.map SurfaceEntry.id).Nodup) :
    (gamma (D := D) base).WellFormed := by
  refine ⟨validate_gamma_iff.mpr distinct, distinct, fun sc member => ?_⟩
  obtain ⟨surf, _, rfl⟩ := List.mem_map.mp member
  intro iv inside
  obtain rfl := List.mem_singleton.mp inside
  exact ⟨trivial, trivial⟩

omit [Zero D] [RustFloat D] in
theorem relisted_gamma {base : SessionImage F} {sc : SurfaceCoefficient D}
    (member : sc ∈ (gamma (D := D) base).relisted) : sc.coefficient = .top := by
  obtain ⟨surf, _, rfl⟩ := List.mem_map.mp (SessionImageV1.mem_of_mem_relisted member)
  rfl

end

section

variable (laws : RustFloat.Documented F) (delayLaws : RustFloat.Documented D)

include laws delayLaws

namespace SessionImageV1

/-- Only an image at the top lies above the image of its base. -/
theorem gamma_leq_iff {x : SessionImageV1 F D} (wellFormed : x.WellFormed) :
    (gamma (alpha x)).leq x = true ↔ x.coeffIsTop = true := by
  have embedded : (gamma (D := D) (alpha x)).WellFormed := gamma_wellFormed wellFormed.distinct
  have keys := congrArg List.length (relisted_keys laws embedded wellFormed rfl)
  rw [List.length_map, List.length_map] at keys
  have above : List.Forall₂ (fun a b => a.coefficient.leq b.coefficient = true)
        (gamma (D := D) (alpha x)).relisted x.relisted ↔
      List.Forall₂ (fun (_ : SurfaceCoefficient D) b => b.coefficient.isTop = true)
        (gamma (D := D) (alpha x)).relisted x.relisted := by
    refine Pointwise.congr_left (fun _ => relisted_gamma) fun a b top => ?_
    rw [top, Coefficient.top_leq_iff delayLaws]
  rw [leq_iff laws embedded wellFormed, above, Pointwise.right_only keys]
  unfold coeffIsTop
  rw [List.all_eq_true]
  constructor
  · intro ⟨_, tops⟩ sc member
    exact tops sc (wellFormed.mem_relisted.mpr member)
  · intro tops
    exact ⟨rfl, fun sc member => tops sc (wellFormed.mem_relisted.mp member)⟩

/-- The trip through v0 keeps the order, and what it leaves unchanged is at the top. -/
theorem gamma_alpha_laws (order : RustFloat.Ordered D) {x y : SessionImageV1 F D}
    (left : x.WellFormed) (right : y.WellFormed) :
    ((gamma (alpha x)).leq x = true ↔ x.coeffIsTop = true) ∧
      (x.leq y = true → (gamma (D := D) (alpha x)).leq (gamma (alpha y)) = true) ∧
      ((gamma (D := D) (alpha x)).canonicalBytes = x.canonicalBytes ↔ x.coeffIsTop = true) := by
  have embedded : (gamma (D := D) (alpha x)).WellFormed := gamma_wellFormed left.distinct
  have tops : (gamma (D := D) (alpha x)).SinglePath := by
    intro sc member
    obtain ⟨_, _, rfl⟩ := List.mem_map.mp member
    rfl
  refine ⟨gamma_leq_iff laws delayLaws left, fun below => ?_, ?_⟩
  · have bases := ((leq_iff laws left right).mp below).1
    exact (leq_gamma_iff laws delayLaws embedded.valid embedded.distinct _).mpr ⟨bases, tops⟩
  · rw [← leq_antisymm_iff laws delayLaws order embedded left, gamma_leq_iff laws delayLaws left,
      leq_gamma_iff laws delayLaws left.valid left.distinct]
    constructor
    · exact And.left
    · intro isTop
      refine ⟨isTop, rfl, fun sc member => ?_⟩
      rw [Coefficient.isTop_iff.mp (List.all_eq_true.mp isTop sc member)]
      rfl

end SessionImageV1

end

/-! ## Images of one label -/

def labelled (paths : Nat) (confidentiality : Confidentiality) : Coefficient ℚ :=
  { Coefficient.top (D := ℚ) with timing := List.replicate paths .unbounded, confidentiality }

def labelledPaths (paths : Nat) (confidentiality : Confidentiality) : SessionImageV1 ℚ ℚ :=
  { base := tidySession
    coefficients :=
      [{ surfaceRef := surfaceIdFromSeed sha256Digest "mac:window:Safari".toList
         coefficient := labelled paths confidentiality }] }

theorem labelledPaths_wellFormed (paths : Nat) (confidentiality : Confidentiality) :
    (labelledPaths paths confidentiality).WellFormed := by
  refine ⟨SessionImageV1.validate_eq_ok.mpr ⟨rfl, fun surf member => ?_⟩, List.nodup_singleton _,
    fun sc member => ?_⟩
  · obtain rfl := List.mem_singleton.mp member
    exact List.count_singleton_self
  · obtain rfl := List.mem_singleton.mp member
    intro iv inside
    obtain rfl := List.eq_of_mem_replicate inside
    exact ⟨trivial, trivial⟩

theorem labelledPaths_leq (paths : Nat) {low high : Confidentiality} (below : low.rank ≤ high.rank) :
    (labelledPaths paths low).leq (labelledPaths paths high) = true := by
  have based : (labelledPaths paths low).baseEq (labelledPaths paths high) = true :=
    decide_eq_true rfl
  have coefficients : (labelled paths low).leq (labelled paths high) = true := by
    refine Coefficient.leq_iff.mpr ⟨List.forall₂_same.mpr fun iv inside => ?_, below, le_rfl, rfl⟩
    exact Interval.containedIn_refl ExactFloat.documented
      (by rw [List.eq_of_mem_replicate inside]; exact ⟨trivial, trivial⟩)
  unfold SessionImageV1.leq
  rw [based]
  simp [labelledPaths, SessionImageV1.coefficientFor, coefficients]

theorem labelledPaths_ordered :
    (labelledPaths 2 .secret).leq (labelledPaths 2 .secret) = true ∧
      (labelledPaths 2 .secret).leq (labelledPaths 2 .public) = true ∧
      ((labelledPaths 2 .secret).leq (labelledPaths 2 .public) = true ∧
          (labelledPaths 2 .public).leq (labelledPaths 2 .secret) = true ↔
        (labelledPaths 2 .secret).canonicalBytes = (labelledPaths 2 .public).canonicalBytes) := by
  obtain ⟨reflexive, transitive, antisymmetric⟩ := SessionImageV1.leq_partialOrder
    ExactFloat.documented ExactFloat.documented ExactFloat.ordered
  have wellFormed := labelledPaths_wellFormed 2
  refine ⟨reflexive _ (wellFormed .secret), ?_, antisymmetric _ _ (wellFormed .secret)
    (wellFormed .public)⟩
  exact transitive _ (labelledPaths 2 .restricted) _ (wellFormed .secret) (wellFormed .restricted)
    (wellFormed .public) (labelledPaths_leq 2 (by decide))
    (labelledPaths_leq 2 (by decide))

theorem labelledPaths_top :
    ((gamma (alpha (labelledPaths 1 .secret))).leq (labelledPaths 1 .secret) = true ↔
        (labelledPaths 1 .secret).coeffIsTop = true) ∧
      (gamma (D := ℚ) (alpha (labelledPaths 1 .secret))).leq
        (gamma (alpha (labelledPaths 1 .public))) = true := by
  have wellFormed := labelledPaths_wellFormed 1
  have laws := SessionImageV1.gamma_alpha_laws ExactFloat.documented ExactFloat.documented
    ExactFloat.ordered (wellFormed .secret) (wellFormed .public)
  exact ⟨laws.1, laws.2.1 (labelledPaths_leq 1 (by decide))⟩

end Simulboot
