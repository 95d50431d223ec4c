import Simulboot.Client.Resume

/-!
# Live sessions

The hosts given on the command line are dialled in turn, and each one's surface
is appended while frames of the earlier ones already arrive.
-/

set_option autoImplicit false
set_option linter.unusedSectionVars false

namespace Simulboot

open Library

variable {F : Type} [Zero F] [One F] [OfNat F 3] [Add F] [Sub F] [Div F] [Max F]
variable [LT F] [LE F] [DecidableLT F] [DecidableLE F]
variable {W E : Type}

section

variable (postcard : Postcard (StructureMessage W) E) (debug : StructureMessage W → Str)
  (hosts : Hosts)

/-- Connect to one host and append its surface to the strip. -/
def connectHost (state : List Link × Strip F) (addr : SocketAddr) :
    Except (AnyhowError E) (List Link × Strip F) := do
  let (links, strip) := state
  let link ← withContext [.text ("connecting to host ".toList ++ addr.display)]
    (connect postcard debug hosts.endpoint links.length addr none)
  let strip := strip.pump (hosts.arrivals links.length)
  return (links ++ [link], (strip.append (surfaceFromAnnounce link.announce addr strip)).2)

def connectLive (addrs : List SocketAddr) (strip : Strip F) :
    Except (AnyhowError E) (List Link × Strip F) :=
  addrs.foldlM (connectHost postcard debug hosts) ([], strip)

end

variable {postcard : Postcard (StructureMessage W) E} {debug : StructureMessage W → Str}
  {hosts : Hosts}

/-- The strip that a host's announce leaves, as an action of the live session. -/
theorem connectHost_eq_ok {links : List Link} {strip : Strip F} {addr : SocketAddr}
    {after : List Link × Strip F}
    (connected : connectHost postcard debug hosts (links, strip) addr = .ok after) :
    ∃ link, connect postcard debug hosts.endpoint links.length addr none = .ok link ∧
      after = (links ++ [link], (strip.pump (hosts.arrivals links.length)).live
        (.hostAnnounced link.announce addr)) := by
  obtain ⟨link, dialled, connected⟩ := bind_eq_ok connected
  rw [withContext_eq_ok] at dialled
  cases connected
  exact ⟨link, dialled, rfl⟩

theorem Strip.LiveReachable.pump {strip : Strip F} (reachable : strip.LiveReachable)
    (arrivals : List FrameEvent) : (strip.pump arrivals).LiveReachable := by
  obtain ⟨viewportWidth, viewportHeight, actions, rfl⟩ := reachable
  refine ⟨viewportWidth, viewportHeight,
    actions ++ arrivals.map fun ev => .frameArrived ev.surfaceId ev.pts, ?_⟩
  rw [List.foldl_append, List.foldl_map]
  rfl

theorem Strip.LiveReachable.live {strip : Strip F} (reachable : strip.LiveReachable)
    (action : LiveAction F) : (strip.live action).LiveReachable := by
  obtain ⟨viewportWidth, viewportHeight, actions, rfl⟩ := reachable
  refine ⟨viewportWidth, viewportHeight, actions ++ [action], ?_⟩
  rw [List.foldl_append]
  rfl

/-- What the compositor connects is a live session. -/
theorem connectLive_reachable {addrs : List SocketAddr} {strip : Strip F}
    (reachable : strip.LiveReachable) {after : List Link × Strip F}
    (connected : connectLive postcard debug hosts addrs strip = .ok after) :
    after.2.LiveReachable := by
  have all : ∀ (addrs : List SocketAddr) (state : List Link × Strip F), state.2.LiveReachable →
      addrs.foldlM (connectHost postcard debug hosts) state = .ok after →
        after.2.LiveReachable := by
    intro addrs
    induction addrs with
    | nil =>
        intro state reachable run
        cases run
        exact reachable
    | cons addr addrs ih =>
        intro state reachable run
        obtain ⟨middle, first, run⟩ := bind_eq_ok run
        obtain ⟨link, _, rfl⟩ := connectHost_eq_ok first
        have next := (reachable.pump (hosts.arrivals state.1.length)).live
          (.hostAnnounced link.announce addr)
        exact ih _ next run
  exact all addrs ([], strip) reachable connected

end Simulboot
