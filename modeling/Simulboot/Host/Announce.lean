import Simulboot.Library.Joined
import Simulboot.Wire

/-!
# What a host announces

The configuration of a host and the surface it announces, with the id that is
minted from three strings of the configuration.
-/

set_option autoImplicit false

namespace Simulboot

open Library

namespace Host

structure Config where
  name : Str
  os : OsKind
  machine : Str
  capture : Str
  tailscaleAddr : Str
  width : UInt32
  height : UInt32
  deriving DecidableEq

namespace Config

def seed (config : Config) : Str :=
  config.machine ++ '|' :: config.capture ++ '|' :: config.name

def surfaceAnnounce (sha256 : Sha256) (config : Config) : SurfaceAnnounce :=
  { id := surfaceIdFromSeed sha256 config.seed
    name := config.name
    width := config.width
    height := config.height
    codec := .h265
    provenance :=
      { os := config.os
        machineName := config.machine
        tailscaleAddr := config.tailscaleAddr
        captureDescription := config.capture } }

/-- The strings that tell surfaces apart. -/
def source (config : Config) : List Str :=
  [config.machine, config.capture, config.name]

/-- The hash has no collision on the seeds of two configurations. -/
def Distinguishes (sha256 : Sha256) (a b : Config) : Prop :=
  sha256 (utf8 a.seed) = sha256 (utf8 b.seed) → utf8 a.seed = utf8 b.seed

/-- Two configurations announce one id just where they announce one surface. -/
def ToldApart (sha256 : Sha256) (a b : Config) : Prop :=
  (a.surfaceAnnounce sha256).id = (b.surfaceAnnounce sha256).id ↔
    a.machine = b.machine ∧ a.capture = b.capture ∧ a.name = b.name

private theorem source_eq_iff {a b : Config} :
    a.source = b.source ↔ a.machine = b.machine ∧ a.capture = b.capture ∧ a.name = b.name := by
  simp [source]

private theorem seed_eq_joined (config : Config) : config.seed = joined '|' config.source := by
  simp [seed, source, joined]

private theorem id_eq_iff {sha256 : Sha256} {a b : Config} (distinguishes : Distinguishes sha256 a b) :
    (a.surfaceAnnounce sha256).id = (b.surfaceAnnounce sha256).id ↔ a.seed = b.seed := by
  constructor
  · intro same
    exact utf8_injective (distinguishes same)
  · intro same
    exact congrArg (surfaceIdFromSeed sha256) same

private theorem exists_same_seed {config : Config} {text : Str} (among : text ∈ config.source)
    (separator : '|' ∈ text) :
    ∃ other : Config, config.seed = other.seed ∧ config.source ≠ other.source := by
  obtain ⟨before, behind, rfl⟩ := List.append_of_mem separator
  have longer : before ++ '|' :: behind ≠ before := by simp
  simp only [source, List.mem_cons, List.not_mem_nil, or_false] at among
  obtain inMachine | inCapture | inName := among
  · refine ⟨{ config with machine := before, capture := behind ++ '|' :: config.capture }, ?_, ?_⟩
    · simp [seed, ← inMachine]
    · simp [source, ← inMachine]
  · refine ⟨{ config with machine := config.machine ++ '|' :: before, capture := behind }, ?_, ?_⟩
    · simp [seed, ← inCapture]
    · simp [source]
  · refine ⟨{ config with capture := config.capture ++ '|' :: before, name := behind }, ?_, ?_⟩
    · simp [seed, ← inName]
    · simp [source]

/-- A host's surface is told apart from every other one exactly where none of the
three strings holds the separator. -/
theorem toldApart_iff (sha256 : Sha256) (config : Config) :
    (∀ other, Distinguishes sha256 config other → ToldApart sha256 config other) ↔
      '|' ∉ config.machine ∧ '|' ∉ config.capture ∧ '|' ∉ config.name := by
  have absent : (∀ text ∈ config.source, '|' ∉ text) ↔
      '|' ∉ config.machine ∧ '|' ∉ config.capture ∧ '|' ∉ config.name := by
    simp [source]
  rw [← absent]
  constructor
  · intro apart text among separator
    obtain ⟨other, sameSeed, otherSource⟩ := exists_same_seed among separator
    have sameId : (config.surfaceAnnounce sha256).id = (other.surfaceAnnounce sha256).id :=
      congrArg (surfaceIdFromSeed sha256) sameSeed
    have told := apart other fun _ => congrArg utf8 sameSeed
    exact otherSource (source_eq_iff.mpr (told.mp sameId))
  · intro plain other distinguishes
    unfold ToldApart
    rw [id_eq_iff distinguishes, ← source_eq_iff, seed_eq_joined, seed_eq_joined]
    constructor
    · exact joined_inj plain rfl
    · exact congrArg (joined '|')

/-- A window whose title holds the separator, and a window that is named after the
end of that title. -/
theorem separator_in_capture :
    let titled : Config :=
      { name := "editor".toList, os := .linux, machine := "desk".toList
        capture := "window:a|b".toList, tailscaleAddr := "100.64.0.1".toList, width := 960
        height := 540 }
    let named : Config := { titled with capture := "window:a".toList, name := "b|editor".toList }
    Distinguishes sha256Digest titled named ∧ ¬ ToldApart sha256Digest titled named := by
  intro titled named
  have sameSeed : titled.seed = named.seed := by decide
  refine ⟨fun _ => congrArg utf8 sameSeed, fun told => ?_⟩
  have same := told.mp (congrArg (surfaceIdFromSeed sha256Digest) sameSeed)
  exact absurd same.2.1 (by decide)

end Config

end Host

end Simulboot
