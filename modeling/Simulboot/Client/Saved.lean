import Simulboot.Client.Resume
import Simulboot.Client.Keys
import Simulboot.Client.Timestamp
import Simulboot.Session.Conformance

/-!
# Saved sessions under the base schema

The document of a checkpoint has the time of any clock in the form that the
schema asks for, but a focus only where the strip has one.
-/

set_option autoImplicit false
set_option linter.unusedSectionVars false

namespace Simulboot

open Library Library.Xml Library.Gregorian

/-! ## The time of a checkpoint -/

private theorem padded_eq (width n : Nat) :
    padded width n = List.replicate (width - (displayNat n).length) '0' ++ displayNat n := rfl

private theorem isDigit_of_mem_padded {width n : Nat} {c : Char} (member : c ∈ padded width n) :
    c.isDigit = true := by
  rw [padded_eq] at member
  rcases List.mem_append.mp member with zero | digit
  · rw [List.eq_of_mem_replicate zero]
    decide
  · exact isDigit_of_mem_displayNat digit

private theorem digits_padded {n : Nat} (small : n < 100) : Digits 2 (padded 2 n) n := by
  have short : (displayNat n).length ≤ 2 := (Nat.length_toDigits_le_iff (by decide) (by decide)).mpr small
  refine ⟨?_, ?_⟩
  · rw [padded_eq, List.length_append, List.length_replicate]
    omega
  · rw [padded_eq, parseDigits_zeros]

private theorem yearForm_padded {n : Nat} (positive : 0 < n) : YearForm (padded 4 n) n where
  digits := by rw [padded_eq, parseDigits_zeros]
  positive := positive
  width := by
    rw [padded_eq, List.length_append, List.length_replicate]
    omega
  short := by
    intro long
    rw [padded_eq, List.length_append, List.length_replicate] at long
    have noZeros : 4 - (displayNat n).length = 0 := by omega
    rw [padded_eq, noZeros, List.replicate_zero, List.nil_append]
    exact displayNat_head? positive

private theorem padded_ne_nil (width n : Nat) : padded width n ≠ [] :=
  List.append_ne_nil_of_right_ne_nil _ (displayNat_ne_nil n)

private theorem isDateTime_rfc3339 {moment : DateTime} (valid : moment.Valid) (year : 0 < moment.date.year) :
    IsDateTime (rfc3339 moment) := by
  obtain ⟨⟨y, mo, d⟩, h, m, s⟩ := moment
  obtain ⟨⟨⟨monthLow, monthHigh⟩, dayLow, dayHigh⟩, hour, minute, second⟩ := valid
  simp only at monthLow monthHigh dayLow dayHigh hour minute second year
  have monthLength : monthLength y mo ≤ 31 := by
    unfold monthLength
    split_ifs <;> omega
  obtain ⟨y, rfl⟩ := Int.eq_ofNat_of_zero_le year.le
  obtain ⟨mo, rfl⟩ := Int.eq_ofNat_of_zero_le (by omega : 0 ≤ mo)
  obtain ⟨d, rfl⟩ := Int.eq_ofNat_of_zero_le (by omega : 0 ≤ d)
  have form := @DateTimeForm.mk [] (padded 4 y) (padded 2 mo) (padded 2 d) (padded 2 h) (padded 2 m)
    (padded 2 s) [] ['Z'] y mo d h m s List.mem_cons_self (yearForm_padded (by omega))
    (digits_padded (by omega)) (digits_padded (by omega))
    ⟨⟨monthLow, monthHigh⟩, dayLow, dayHigh⟩ (digits_padded (by omega)) (digits_padded (by omega))
    (digits_padded (by omega)) .none (.inl ⟨hour, minute, second⟩) .utc
  have written : rfc3339 ⟨⟨y, mo, d⟩, h, m, s⟩ = [] ++ padded 4 y ++ '-' :: padded 2 mo ++
      '-' :: padded 2 d ++ 'T' :: padded 2 h ++ ':' :: padded 2 m ++ ':' :: padded 2 s ++ [] ++
      ['Z'] := by
    simp [rfc3339]
  have untrimmed : trim (rfc3339 ⟨⟨y, mo, d⟩, h, m, s⟩) = rfc3339 ⟨⟨y, mo, d⟩, h, m, s⟩ := by
    refine trim_eq_self_iff.mpr ⟨fun c head => ?_, fun c last => ?_⟩
    · cases first : padded 4 (y : Int) with
      | nil => exact absurd first (padded_ne_nil 4 y)
      | cons digit rest =>
          simp only [rfc3339, first, List.cons_append, List.head?_cons, Option.some.injEq] at head
          subst head
          exact not_isSpace_of_isDigit (isDigit_of_mem_padded (first ▸ List.mem_cons_self))
    · rw [written, List.getLast?_concat] at last
      cases last
      decide
  unfold IsDateTime
  rw [untrimmed, written]
  exact form

/-- Whatever the clock says, a checkpoint gets a time that the schema accepts. -/
theorem nowRfc3339_isDateTime (sinceEpoch : Option UInt64) :
    ∃ created, nowRfc3339 sinceEpoch = .ok created ∧ IsDateTime created := by
  obtain ⟨moment, fields, valid, since1970, _⟩ := epochUtc_correct (sinceEpoch.getD 0)
  have year : 0 < moment.date.year := by omega
  refine ⟨rfc3339 moment, ?_, isDateTime_rfc3339 valid year⟩
  unfold nowRfc3339 formatEpochUtc
  rw [fields]
  rfl

/-! ## Checkpoints -/

variable {F : Type} [Zero F] [One F] [OfNat F 3] [Add F] [Sub F] [Div F] [Max F]
variable [LT F] [LE F] [DecidableLT F] [DecidableLE F] [RustFloat F]
variable {W E : Type}

private theorem checkpoint_conforms_iff {xml : QuickXml} (documented : Documented xml)
    (laws : RustFloat.Documented F) (sha256 : Sha256) {strip : Strip F} {created : Str}
    (time : IsDateTime created) :
    Conforms xml ((imageFromStrip sha256 strip created).toXml sha256) ↔
      strip.surfaces ≠ [] ∧ strip.focus.isSome = true ∧
        (∀ s ∈ strip.surfaces, 0 < s.sourceWidth ∧ 0 < s.sourceHeight) ∧
        IsDecimal (fmtF32 strip.scrollPos) := by
  have surfaces : (imageFromStrip sha256 strip created).surfaces =
      strip.surfaces.map surfaceEntry := rfl
  have sizes : (∀ surf ∈ strip.surfaces.map surfaceEntry, 0 < surf.width ∧ 0 < surf.height) ↔
      ∀ s ∈ strip.surfaces, 0 < s.sourceWidth ∧ 0 < s.sourceHeight := List.forall_mem_map
  have version : (imageFromStrip sha256 strip created).schemaVersion.toNat < 2 ^ 31 := by
    change (1 : UInt32).toNat < 2 ^ 31
    decide
  rw [toXml_conforms_iff documented laws sha256, surfaces, sizes, ne_eq, List.map_eq_nil_iff]
  exact ⟨fun ⟨any, focused, _, positive, decimal⟩ => ⟨any, focused, positive, decimal⟩,
    fun ⟨any, focused, positive, decimal⟩ => ⟨any, focused, ⟨time, version⟩, positive, decimal⟩⟩

private theorem Strip.pump_focus (strip : Strip F) (arrivals : List FrameEvent) :
    (strip.pump arrivals).focus = strip.focus := by
  induction arrivals generalizing strip with
  | nil => rfl
  | cons ev arrivals ih => exact ih (strip.noteFrame ev.surfaceId ev.pts)

private theorem connectLive_focus {postcard : Postcard (StructureMessage W) E}
    {debug : StructureMessage W → Str} {hosts : Hosts} {addrs : List SocketAddr} {strip : Strip F}
    {after : List Link × Strip F}
    (connected : connectLive postcard debug hosts addrs strip = .ok after) :
    after.2.focus = strip.focus := by
  have all : ∀ (addrs : List SocketAddr) (state : List Link × Strip F),
      addrs.foldlM (connectHost postcard debug hosts) state = .ok after →
        after.2.focus = state.2.focus := by
    intro addrs
    induction addrs with
    | nil =>
        intro state run
        cases run
        rfl
    | cons addr addrs ih =>
        intro state run
        obtain ⟨middle, first, run⟩ := bind_eq_ok run
        obtain ⟨link, _, rfl⟩ := connectHost_eq_ok first
        exact (ih _ run).trans (Strip.pump_focus _ _)
  exact all addrs ([], strip) connected

/-- At any time a checkpoint has a time that the base schema accepts, and is saved as
a document of it exactly where the strip has a surface and a focus, sources of positive size and a decimal
scroll position. A session that has just gone live has no focus. -/
theorem saved_conforms {xml : QuickXml} (documented : Documented xml)
    (laws : RustFloat.Documented F) (sha256 : Sha256) (sinceEpoch : Option UInt64) :
    ∃ created, nowRfc3339 sinceEpoch = .ok created ∧ IsDateTime created ∧
      (∀ strip : Strip F, Conforms xml ((imageFromStrip sha256 strip created).toXml sha256) ↔
        strip.surfaces ≠ [] ∧ strip.focus.isSome = true ∧
          (∀ s ∈ strip.surfaces, 0 < s.sourceWidth ∧ 0 < s.sourceHeight) ∧
          IsDecimal (fmtF32 strip.scrollPos)) ∧
      ∀ (postcard : Postcard (StructureMessage W) E) (debug : StructureMessage W → Str)
        (hosts : Hosts) (addrs : List SocketAddr) (viewportWidth viewportHeight : F)
        (links : List Link) (strip : Strip F) (arrivals : List FrameEvent),
        connectLive postcard debug hosts addrs (.new viewportWidth viewportHeight) =
            .ok (links, strip) →
          ¬ Conforms xml ((imageFromStrip sha256 (strip.pump arrivals) created).toXml sha256) := by
  obtain ⟨created, now, time⟩ := nowRfc3339_isDateTime sinceEpoch
  refine ⟨created, now, time, fun strip => checkpoint_conforms_iff documented laws sha256 time, ?_⟩
  intro postcard debug hosts addrs viewportWidth viewportHeight links strip arrivals connected
  rw [checkpoint_conforms_iff documented laws sha256 time, Strip.pump_focus,
    connectLive_focus connected]
  intro ⟨_, focused, _⟩
  cases focused

/-! ## A session in which a surface was clicked -/

def clickedStrip : Strip ℚ :=
  [.hostAnnounced sampleAnnounce (.v4 ⟨127, 0, 0, 1⟩ 7001), .clicked 100 100].foldl Strip.live
    (.new 1200 800)

theorem clickedStrip_saved :
    ∃ created, nowRfc3339 (some 1782675849) = .ok created ∧ IsDateTime created ∧
      Conforms Scanner.quickXml
        ((imageFromStrip sha256Digest clickedStrip created).toXml sha256Digest) ∧
      ∃ links strip, connectLive (StructureMessage.postcard Library.Postcard.Format.f32)
          (fun _ => []) sampleHosts [.v4 ⟨127, 0, 0, 1⟩ 7001] (.new (1200 : ℚ) 800) =
            .ok (links, strip) ∧
        ¬ Conforms Scanner.quickXml
          ((imageFromStrip sha256Digest (strip.pump []) created).toXml sha256Digest) := by
  obtain ⟨created, now, time, conforms, unfocused⟩ := saved_conforms (F := ℚ)
    Scanner.documented ExactFloat.documented sha256Digest (some 1782675849)
  obtain ⟨⟨links, strip⟩, connected⟩ :=
    sampleHosts_live [.v4 ⟨127, 0, 0, 1⟩ 7001] ([], .new 1200 800)
  have size : clickedStrip.surfaces.map (fun s => (s.sourceWidth, s.sourceHeight)) = [(960, 540)] := by
    decide +kernel
  have focused : clickedStrip.focus = some sampleAnnounce.id := by decide +kernel
  have scroll : clickedStrip.scrollPos = 0 := by decide +kernel
  refine ⟨created, now, time,
    (conforms clickedStrip).mpr ⟨?_, by rw [focused]; rfl, fun s member => ?_, ?_⟩,
    links, strip, connected, unfocused _ _ _ _ 1200 800 links strip [] connected⟩
  · intro none
    rw [none] at size
    cases size
  · have listed := List.mem_map_of_mem (f := fun s => (s.sourceWidth, s.sourceHeight)) member
    rw [size, List.mem_singleton, Prod.mk.injEq] at listed
    rw [listed.1, listed.2]
    decide
  · rw [scroll]
    exact @DecimalForm.whole [] ['0'] List.mem_cons_self (by decide) (by decide)

end Simulboot
