import Simulboot.Broker
import Simulboot.Library.Bounded
import Simulboot.Library.Family
import Simulboot.Library.Lossy

/-!
# Serving many clients

The broker accepts connections until it is shut down and gives each a task of its own.
Clients send what they like in any pieces, and anything may break off at any time.
-/

set_option autoImplicit false

namespace Simulboot

open Library Library.Family Library.Http

/-- How far the broker has come with a connection: it is in the listener's backlog, or its task
reads the request, writes the response, has closed the stream, or has failed. -/
inductive Handling where
  | waiting
  | reading (buf : Bytes)
  | writing (rest : Bytes)
  | closed
  | failed
  deriving DecidableEq

/-- A connection, with what the client has sent and received. -/
structure Visit where
  sent : Bytes
  /-- Sent and not read yet. -/
  arriving : Bytes
  /-- The client has closed its side. -/
  finished : Bool
  task : Handling
  received : Bytes
  deriving DecidableEq

inductive VisitAction where
  | sends (bytes : Bytes)
  | finishes
  | accepted
  | reads (count : Nat)
  | readsEnd
  | writes (count : Nat)
  | breaks
  deriving DecidableEq

/-- The size of the array that a task reads into. -/
def chunkLen : Nat :=
  1024

/-- The response to what was read of a request. -/
def respond (buf : Bytes) (image : ServedImage) : Bytes :=
  let parts := splitWhitespace (firstLine (fromUtf8Lossy buf))
  writeResponse (route (parts.getD 0 []) (parts.getD 1 []) image) image

theorem handleConnection_eq (chunks : List Bytes) (image : ServedImage) :
    handleConnection chunks image = respond (readHead [] chunks) image := rfl

/-- A task stops reading at the end of a head, or when it has too much. -/
def Enough (buf : Bytes) : Prop :=
  (findHeaderEnd buf).isSome ∨ buf.length > maxHeadLen

instance (buf : Bytes) : Decidable (Enough buf) :=
  inferInstanceAs (Decidable (_ ∨ _))

private theorem not_enough_nil : ¬ Enough [] := by
  decide

/-! ## The request line -/

private theorem respond_line {line : Bytes} (single : 10 ∉ line) (rest : Bytes) (image : ServedImage) :
    respond (line ++ 10 :: rest) image = respond (line ++ [10]) image := by
  have first : firstLine (fromUtf8Lossy (line ++ 10 :: rest)) =
      firstLine (fromUtf8Lossy (line ++ [10])) := by
    rw [fromUtf8Lossy_line single, fromUtf8Lossy_line single, fromUtf8Lossy_nil,
      firstLine_feed (feed_not_mem_fromUtf8Lossy single)]
  unfold respond
  rw [first]

private theorem line_prefix_of_enough {buf missing line rest : Bytes}
    (split : buf ++ missing = line ++ 10 :: rest) (single : 10 ∉ line)
    (short : line.length ≤ maxHeadLen) (enough : missing = [] ∨ Enough buf) :
    ∃ behind, buf = line ++ 10 :: behind := by
  have front : buf <+: line ++ 10 :: rest := ⟨missing, split⟩
  have reached : line.length < buf.length := by
    rcases enough with rfl | found | long
    · rw [List.append_nil] at split
      rw [split, List.length_append, List.length_cons]
      omega
    · by_contra before
      obtain ⟨position, found⟩ := Option.isSome_iff_exists.mp found
      have feed : (10 : UInt8) ∈ headerTerminator := by decide
      have inLine := List.prefix_of_prefix_length_le front (List.prefix_append line (10 :: rest))
        (by omega)
      exact single (inLine.subset (mem_of_findWindow found feed))
    · omega
  have whole : line ++ [10] <+: buf := by
    refine List.prefix_of_prefix_length_le ⟨rest, by simp⟩ front ?_
    rw [List.length_append, List.length_singleton]
    exact reached
  obtain ⟨behind, rfl⟩ := whole
  exact ⟨behind, by simp⟩

namespace Visit

def fresh : Visit :=
  { sent := [], arriving := [], finished := false, task := .waiting, received := [] }

variable (image : ServedImage)

def reads (count : Nat) (visit : Visit) : Except Disabled Visit :=
  match visit.task with
  | .reading buf =>
      let chunk := visit.arriving.take count
      let buf := buf ++ chunk
      onlyIf (0 < count ∧ count ≤ chunkLen ∧ count ≤ visit.arriving.length)
        { visit with
          arriving := visit.arriving.drop count
          task := if Enough buf then .writing (respond buf image) else .reading buf }
  | _ => .error .disabled

def readsEnd (visit : Visit) : Except Disabled Visit :=
  match visit.task with
  | .reading buf =>
      onlyIf (visit.arriving = [] ∧ visit.finished = true)
        { visit with task := .writing (respond buf image) }
  | _ => .error .disabled

def writes (count : Nat) (visit : Visit) : Except Disabled Visit :=
  match visit.task with
  | .writing rest =>
      onlyIf (0 < count ∧ count ≤ rest.length)
        { visit with
          received := visit.received ++ rest.take count
          task := if rest.drop count = [] then .closed else .writing (rest.drop count) }
  | _ => .error .disabled

/-- A read or a write of the task fails. -/
def breaks (visit : Visit) : Except Disabled Visit :=
  match visit.task with
  | .reading _ | .writing _ => .ok { visit with task := .failed }
  | _ => .error .disabled

def step (visit : Visit) : VisitAction → Except Disabled Visit
  | .sends bytes =>
      onlyIf (visit.finished = false)
        { visit with sent := visit.sent ++ bytes, arriving := visit.arriving ++ bytes }
  | .finishes => .ok { visit with finished := true }
  | .accepted => onlyIf (visit.task = .waiting) { visit with task := .reading [] }
  | .reads count => visit.reads image count
  | .readsEnd => visit.readsEnd image
  | .writes count => visit.writes count
  | .breaks => visit.breaks

/-! ## What a connection has been given -/

/-- All that a task will read has been read. -/
structure ReadOff (visit : Visit) (chunks : List Bytes) : Prop where
  read : readHead [] chunks = chunks.flatten
  complete : Enough chunks.flatten ∨ visit.finished = true ∧ visit.arriving = []

/-- How a task that has read some chunks stands. -/
def Stands (visit : Visit) (chunks : List Bytes) : Handling → Prop
  | .waiting => chunks = [] ∧ visit.received = []
  | .reading buf =>
      buf = chunks.flatten ∧ ¬ Enough buf ∧ visit.received = [] ∧
        ∀ more, readHead [] (chunks ++ more) = readHead buf more
  | .writing rest =>
      rest ≠ [] ∧ visit.ReadOff chunks ∧ visit.received ++ rest = handleConnection chunks image
  | .closed => visit.ReadOff chunks ∧ visit.received = handleConnection chunks image
  | .failed =>
      (visit.received ≠ [] → visit.ReadOff chunks) ∧
        visit.received <+: handleConnection chunks image

/-- A connection from which some chunks have been read. -/
structure Served (visit : Visit) (chunks : List Bytes) : Prop where
  whole : chunks.flatten ++ visit.arriving = visit.sent
  chunked : ∀ chunk ∈ chunks, chunk ≠ [] ∧ chunk.length ≤ chunkLen
  bounded : chunks.flatten.length ≤ maxHeadLen + chunkLen
  stands : visit.Stands image chunks visit.task

variable {image}

private theorem served_fresh : fresh.Served image [] where
  whole := rfl
  chunked := nofun
  bounded := Nat.zero_le _
  stands := ⟨rfl, rfl⟩

end Visit

namespace Visit

variable {image : ServedImage} {chunks : List Bytes} {visit visit' : Visit}

private theorem readHead_cons_enough {buf chunk : Bytes} (nonempty : chunk ≠ []) (enough : Enough (buf ++ chunk))
    (more : List Bytes) : readHead buf (chunk :: more) = buf ++ chunk := by
  rw [readHead, if_neg nonempty]
  exact if_pos enough

private theorem readHead_cons_short {buf chunk : Bytes} (nonempty : chunk ≠ [])
    (short : ¬ Enough (buf ++ chunk)) (more : List Bytes) :
    readHead buf (chunk :: more) = readHead (buf ++ chunk) more := by
  rw [readHead, if_neg nonempty]
  exact if_neg short

private theorem Enough.length_le {buf : Bytes} (short : ¬ Enough buf) : buf.length ≤ maxHeadLen :=
  not_lt.mp fun long => short (.inr long)

private theorem writeResponse_ne_nil (r : Route) (image : ServedImage) : writeResponse r image ≠ [] := by
  have front : ∀ status fields length, utf8 (responseHead status fields length) ≠ [] := by
    intro status fields length empty
    have text := utf8_eq_nil_iff.mp empty
    cases text
  intro empty
  cases r <;> exact front _ _ _ (List.append_eq_nil_iff.mp empty).1

theorem reads_eq_ok {count : Nat} : visit.step image (.reads count) = .ok visit' ↔
    ∃ buf, visit.task = .reading buf ∧
      (0 < count ∧ count ≤ chunkLen ∧ count ≤ visit.arriving.length) ∧
      { visit with
        arriving := visit.arriving.drop count
        task :=
          if Enough (buf ++ visit.arriving.take count) then
            .writing (respond (buf ++ visit.arriving.take count) image)
          else .reading (buf ++ visit.arriving.take count) } = visit' := by
  change visit.reads image count = .ok visit' ↔ _
  unfold Visit.reads
  cases visit.task with
  | reading buf => simp [onlyIf_eq_ok]
  | _ => simp

theorem readsEnd_eq_ok : visit.step image .readsEnd = .ok visit' ↔
    ∃ buf, visit.task = .reading buf ∧ (visit.arriving = [] ∧ visit.finished = true) ∧
      { visit with task := .writing (respond buf image) } = visit' := by
  change visit.readsEnd image = .ok visit' ↔ _
  unfold Visit.readsEnd
  cases visit.task with
  | reading buf => simp [onlyIf_eq_ok]
  | _ => simp

theorem writes_eq_ok {count : Nat} : visit.step image (.writes count) = .ok visit' ↔
    ∃ rest, visit.task = .writing rest ∧ (0 < count ∧ count ≤ rest.length) ∧
      { visit with
        received := visit.received ++ rest.take count
        task := if rest.drop count = [] then .closed else .writing (rest.drop count) } = visit' := by
  change visit.writes count = .ok visit' ↔ _
  unfold Visit.writes
  cases visit.task with
  | writing rest => simp [onlyIf_eq_ok]
  | _ => simp

theorem breaks_eq_ok : visit.step image .breaks = .ok visit' ↔
    ((∃ buf, visit.task = .reading buf) ∨ ∃ rest, visit.task = .writing rest) ∧
      { visit with task := .failed } = visit' := by
  change visit.breaks = .ok visit' ↔ _
  unfold Visit.breaks
  cases visit.task <;> simp

theorem Stands.mono {task : Handling} (stands : visit.Stands image chunks task)
    (received : visit'.received = visit.received)
    (off : visit.ReadOff chunks → visit'.ReadOff chunks) : visit'.Stands image chunks task := by
  unfold Stands at stands ⊢
  rw [received]
  cases task with
  | waiting | reading _ => exact stands
  | writing rest => exact ⟨stands.1, off stands.2.1, stands.2.2⟩
  | closed => exact ⟨off stands.1, stands.2⟩
  | failed => exact ⟨fun some => off (stands.1 some), stands.2⟩

private theorem Served.sends (served : visit.Served image chunks) {bytes : Bytes}
    (stepped : visit.step image (.sends bytes) = .ok visit') : visit'.Served image chunks := by
  obtain ⟨unfinished, rfl⟩ := onlyIf_eq_ok.mp stepped
  refine { served with whole := ?_, stands := served.stands.mono rfl ?_ }
  · rw [← served.whole, List.append_assoc]
  · rintro ⟨read, enough | ⟨finished, _⟩⟩
    · exact ⟨read, .inl enough⟩
    · rw [unfinished] at finished
      cases finished

private theorem Served.finishes (served : visit.Served image chunks)
    (stepped : visit.step image .finishes = .ok visit') : visit'.Served image chunks := by
  cases stepped
  refine { served with stands := served.stands.mono rfl ?_ }
  rintro ⟨read, enough | ⟨_, empty⟩⟩
  · exact ⟨read, .inl enough⟩
  · exact ⟨read, .inr ⟨rfl, empty⟩⟩

private theorem Served.accepted (served : visit.Served image chunks)
    (stepped : visit.step image .accepted = .ok visit') : visit'.Served image chunks := by
  obtain ⟨waiting, rfl⟩ := onlyIf_eq_ok.mp stepped
  have stands := served.stands
  rw [waiting] at stands
  obtain ⟨rfl, none⟩ := stands
  exact { served with stands := ⟨rfl, not_enough_nil, none, fun _ => rfl⟩ }

private theorem Served.reads (served : visit.Served image chunks) {count : Nat}
    (stepped : visit.step image (.reads count) = .ok visit') :
    ∃ chunk, visit'.Served image (chunks ++ [chunk]) := by
  obtain ⟨buf, reading, ⟨positive, limited, within⟩, rfl⟩ := reads_eq_ok.mp stepped
  have stands := served.stands
  rw [reading] at stands
  obtain ⟨rfl, short, none, goesOn⟩ := stands
  have size : (visit.arriving.take count).length = count := by
    rw [List.length_take, Nat.min_eq_left within]
  have nonempty : visit.arriving.take count ≠ [] := by
    rw [← List.length_pos_iff, size]
    exact positive
  have flat : (chunks ++ [visit.arriving.take count]).flatten =
      chunks.flatten ++ visit.arriving.take count := by simp
  refine ⟨visit.arriving.take count, ?_, ?_, ?_, ?_⟩
  · rw [flat, List.append_assoc, List.take_append_drop]
    exact served.whole
  · rw [List.forall_mem_append, List.forall_mem_singleton]
    exact ⟨served.chunked, nonempty, size.le.trans limited⟩
  · have before := Enough.length_le short
    rw [flat, List.length_append, size]
    omega
  · by_cases enough : Enough (chunks.flatten ++ visit.arriving.take count)
    · have read : readHead [] (chunks ++ [visit.arriving.take count]) =
          chunks.flatten ++ visit.arriving.take count :=
        (goesOn _).trans (readHead_cons_enough nonempty enough [])
      rw [if_pos enough]
      refine ⟨writeResponse_ne_nil _ _, ⟨read.trans flat.symm, .inl (flat ▸ enough)⟩, ?_⟩
      rw [handleConnection_eq, read]
      dsimp only
      rw [none, List.nil_append]
    · rw [if_neg enough]
      refine ⟨flat.symm, enough, none, fun more => ?_⟩
      rw [List.append_assoc, goesOn]
      exact readHead_cons_short nonempty enough more

private theorem Served.readsEnd (served : visit.Served image chunks)
    (stepped : visit.step image .readsEnd = .ok visit') : visit'.Served image chunks := by
  obtain ⟨buf, reading, ⟨empty, finished⟩, rfl⟩ := readsEnd_eq_ok.mp stepped
  have stands := served.stands
  rw [reading] at stands
  obtain ⟨rfl, _, none, goesOn⟩ := stands
  have read : readHead [] chunks = chunks.flatten := by
    have all := goesOn []
    rw [List.append_nil] at all
    exact all
  refine { served with
      stands := ⟨writeResponse_ne_nil _ _, ⟨read, .inr ⟨finished, empty⟩⟩, ?_⟩ }
  rw [handleConnection_eq, read]
  dsimp only
  rw [none, List.nil_append]

private theorem Served.writes (served : visit.Served image chunks) {count : Nat}
    (stepped : visit.step image (.writes count) = .ok visit') : visit'.Served image chunks := by
  obtain ⟨rest, writing, ⟨positive, within⟩, rfl⟩ := writes_eq_ok.mp stepped
  have stands := served.stands
  rw [writing] at stands
  obtain ⟨_, off, response⟩ := stands
  rw [← List.take_append_drop count rest, ← List.append_assoc] at response
  refine { served with stands := ?_ }
  by_cases last : rest.drop count = []
  · rw [if_pos last]
    rw [last, List.append_nil] at response
    exact ⟨⟨off.read, off.complete⟩, response⟩
  · rw [if_neg last]
    exact ⟨last, ⟨off.read, off.complete⟩, response⟩

private theorem Served.breaks (served : visit.Served image chunks)
    (stepped : visit.step image .breaks = .ok visit') : visit'.Served image chunks := by
  obtain ⟨underway, rfl⟩ := breaks_eq_ok.mp stepped
  have stands := served.stands
  rcases underway with ⟨buf, reading⟩ | ⟨rest, writing⟩
  · rw [reading] at stands
    obtain ⟨_, _, none, _⟩ := stands
    refine { served with stands := ⟨fun some => absurd none some, ?_⟩ }
    dsimp only
    rw [none]
    exact List.nil_prefix
  · rw [writing] at stands
    obtain ⟨_, off, response⟩ := stands
    exact { served with stands := ⟨fun _ => ⟨off.read, off.complete⟩, rest, response⟩ }

theorem Served.step (served : visit.Served image chunks) {action : VisitAction}
    (stepped : visit.step image action = .ok visit') : ∃ chunks, visit'.Served image chunks := by
  cases action with
  | sends bytes => exact ⟨chunks, served.sends stepped⟩
  | finishes => exact ⟨chunks, served.finishes stepped⟩
  | accepted => exact ⟨chunks, served.accepted stepped⟩
  | reads count =>
      obtain ⟨chunk, served⟩ := served.reads stepped
      exact ⟨_, served⟩
  | readsEnd => exact ⟨chunks, served.readsEnd stepped⟩
  | writes count => exact ⟨chunks, served.writes stepped⟩
  | breaks => exact ⟨chunks, served.breaks stepped⟩

private theorem Served.received_prefix (served : visit.Served image chunks) :
    visit.received <+: handleConnection chunks image := by
  have stands := served.stands
  cases task : visit.task with
  | waiting =>
      rw [task] at stands
      rw [stands.2]
      exact List.nil_prefix
  | reading buf =>
      rw [task] at stands
      rw [stands.2.2.1]
      exact List.nil_prefix
  | writing rest =>
      rw [task] at stands
      exact ⟨rest, stands.2.2⟩
  | closed =>
      rw [task] at stands
      rw [stands.2]
  | failed =>
      rw [task] at stands
      exact stands.2

private theorem Served.readOff (served : visit.Served image chunks) (some : visit.received ≠ []) :
    visit.ReadOff chunks := by
  have stands := served.stands
  cases task : visit.task with
  | waiting =>
      rw [task] at stands
      exact absurd stands.2 some
  | reading buf =>
      rw [task] at stands
      exact absurd stands.2.2.1 some
  | writing rest =>
      rw [task] at stands
      exact stands.2.1
  | closed =>
      rw [task] at stands
      exact stands.1
  | failed =>
      rw [task] at stands
      exact stands.1 some

/-- A line that the client sent is what a task that has read off its request answers. -/
theorem Served.handleConnection_line (served : visit.Served image chunks) {line rest : Bytes}
    (sent : visit.sent = line ++ 10 :: rest) (single : 10 ∉ line) (short : line.length ≤ maxHeadLen)
    (off : visit.ReadOff chunks) :
    handleConnection chunks image = respond (line ++ [10]) image := by
  have split := served.whole.trans sent
  obtain ⟨behind, read⟩ := line_prefix_of_enough split single short (off.complete.symm.imp_left And.right)
  rw [handleConnection_eq, off.read, read, respond_line single]

private theorem waiting_of_step {action : VisitAction} (waiting : visit.task = .waiting)
    (other : action ≠ .accepted) (stepped : visit.step image action = .ok visit') :
    visit'.task = .waiting := by
  cases action with
  | sends bytes =>
      obtain ⟨_, rfl⟩ := onlyIf_eq_ok.mp stepped
      exact waiting
  | finishes =>
      cases stepped
      exact waiting
  | accepted => exact absurd rfl other
  | reads count =>
      obtain ⟨_, reading, _⟩ := reads_eq_ok.mp stepped
      cases waiting.symm.trans reading
  | readsEnd =>
      obtain ⟨_, reading, _⟩ := readsEnd_eq_ok.mp stepped
      cases waiting.symm.trans reading
  | writes count =>
      obtain ⟨_, writing, _⟩ := writes_eq_ok.mp stepped
      cases waiting.symm.trans writing
  | breaks =>
      obtain ⟨⟨_, reading⟩ | ⟨_, writing⟩, _⟩ := breaks_eq_ok.mp stepped
      · cases waiting.symm.trans reading
      · cases waiting.symm.trans writing

end Visit

/-- The broker: its accept loop, and the connections to it. -/
structure Serving (ι : Type) where
  running : Bool
  visits : ι → Visit

inductive ServingAction (ι : Type) where
  | visit (i : ι) (action : VisitAction)
  /-- The shutdown future fires. -/
  | shutsDown
  /-- Accepting a connection fails, which ends the loop. -/
  | acceptFails

namespace Serving

variable {ι : Type} [DecidableEq ι]

def initial : Serving ι :=
  { running := true, visits := fun _ => .fresh }

/-- A step of one connection; a connection is accepted only in the loop. -/
def visit (image : ServedImage) (i : ι) (action : VisitAction) (s : Serving ι) :
    Except Disabled (Serving ι) :=
  if action = .accepted ∧ s.running = false then .error .disabled
  else (stepAt (fun _ => Visit.step image) s.visits (i, action)).map fun visits =>
    { s with visits }

def step (image : ServedImage) (s : Serving ι) : ServingAction ι → Except Disabled (Serving ι)
  | .visit i action => s.visit image i action
  | .shutsDown | .acceptFails => onlyIf (s.running = true) { s with running := false }

def run (image : ServedImage) (actions : List (ServingAction ι)) : Except Disabled (Serving ι) :=
  actions.foldlM (step image) initial

variable {image : ServedImage} {actions : List (ServingAction ι)} {s s' : Serving ι}

theorem visit_eq_ok {i : ι} {action : VisitAction} :
    s.step image (.visit i action) = .ok s' ↔ (action = .accepted → s.running = true) ∧
      s'.running = s.running ∧
      stepAt (fun _ => Visit.step image) s.visits (i, action) = .ok s'.visits := by
  change s.visit image i action = .ok s' ↔ _
  unfold visit
  by_cases gated : action = .accepted ∧ s.running = false
  · rw [if_pos gated]
    simp [gated]
  · rw [if_neg gated]
    have allowed : action = .accepted → s.running = true := fun accepts => by
      simpa using fun stopped => gated ⟨accepts, stopped⟩
    cases stepAt (fun _ => Visit.step image) s.visits (i, action) with
    | error e => simp [Except.map]
    | ok visits =>
        obtain ⟨running, visits'⟩ := s'
        simp only [Except.map, Except.ok.injEq, Serving.mk.injEq]
        exact ⟨fun ⟨same, own⟩ => ⟨allowed, same.symm, own⟩, fun ⟨_, same, own⟩ => ⟨same.symm, own⟩⟩

theorem visits_of_step {action : ServingAction ι} (stepped : s.step image action = .ok s') :
    (∃ i act, action = .visit i act ∧ (act = .accepted → s.running = true) ∧
        s'.running = s.running ∧
        stepAt (fun _ => Visit.step image) s.visits (i, act) = .ok s'.visits) ∨
      s'.running = false ∧ s'.visits = s.visits := by
  cases action with
  | visit i act => exact .inl ⟨i, act, rfl, visit_eq_ok.mp stepped⟩
  | shutsDown | acceptFails =>
      obtain ⟨_, rfl⟩ := onlyIf_eq_ok.mp stepped
      exact .inr ⟨rfl, rfl⟩

/-- What every step of a connection keeps holds of all connections. -/
theorem visits_invariant (holds : Visit → Prop)
    (kept : ∀ visit action visit', holds visit → visit.step image action = .ok visit' →
      holds visit') (start : ∀ i, holds (s.visits i))
    (run : actions.foldlM (step image) s = .ok s') : ∀ i, holds (s'.visits i) := by
  refine @Run.invariant _ _ _ _ (fun s : Serving ι => ∀ i, holds (s.visits i)) _ _ _ ?_ start run
  intro action _ before after held stepped i
  rcases visits_of_step stepped with ⟨j, act, rfl, _, _, moved⟩ | ⟨_, same⟩
  · obtain ⟨own, others⟩ := stepAt_eq_ok.mp moved
    by_cases same : i = j
    · subst same
      exact kept _ _ _ (held i) own
    · rw [others i same]
      exact held i
  · rw [same]
    exact held i

theorem served_of_run (reached : run image actions = .ok s) (i : ι) :
    ∃ chunks, (s.visits i).Served image chunks :=
  visits_invariant (fun visit => ∃ chunks, visit.Served image chunks)
    (fun _ _ _ ⟨_, served⟩ stepped => served.step stepped) (fun _ => ⟨[], Visit.served_fresh⟩)
    reached i

private theorem waiting_of_stopped (stopped : s.running = false)
    (run : actions.foldlM (step image) s = .ok s') :
    s'.running = false ∧ ∀ i, (s.visits i).task = .waiting → (s'.visits i).task = .waiting := by
  refine @Run.invariant _ _ _ _ (fun t : Serving ι => t.running = false ∧
    ∀ i, (s.visits i).task = .waiting → (t.visits i).task = .waiting) _ _ _ ?_
    ⟨stopped, fun _ => id⟩ run
  intro action _ before after ⟨ended, left⟩ stepped
  rcases visits_of_step stepped with ⟨j, act, rfl, gated, same, moved⟩ | ⟨ended, same⟩
  · refine ⟨same.trans ended, fun i waiting => ?_⟩
    obtain ⟨own, others⟩ := stepAt_eq_ok.mp moved
    by_cases mine : i = j
    · subst mine
      refine Visit.waiting_of_step (left i waiting) ?_ own
      intro accepts
      rw [gated accepts] at ended
      cases ended
    · rw [others i mine]
      exact left i waiting
  · exact ⟨ended, fun i waiting => same ▸ left i waiting⟩

/-- A request line that fits into a head is what is answered, however the request was cut. -/
theorem received_line (reached : run image actions = .ok s) {i : ι} {line rest : Bytes}
    (sent : (s.visits i).sent = line ++ 10 :: rest) (single : 10 ∉ line)
    (short : line.length ≤ maxHeadLen) :
    (s.visits i).received <+: respond (line ++ [10]) image := by
  obtain ⟨chunks, served⟩ := served_of_run reached i
  by_cases none : (s.visits i).received = []
  · rw [none]
    exact List.nil_prefix
  · rw [← served.handleConnection_line sent single short (served.readOff none)]
    exact served.received_prefix

/-- In every interleaving of the clients and the broker's tasks, a client receives nothing but
the response to what it sent itself: to its request line, where that fits into a head, however
the request was cut. No task ever holds more than a head and one read. -/
theorem answers_own_request (reached : run image actions = .ok s) (i : ι) :
    (∃ chunks, (∀ chunk ∈ chunks, chunk ≠ [] ∧ chunk.length ≤ chunkLen) ∧
        chunks.flatten <+: (s.visits i).sent ∧
        chunks.flatten.length ≤ maxHeadLen + chunkLen ∧
        (∀ buf, (s.visits i).task = .reading buf → buf = chunks.flatten) ∧
        (s.visits i).received <+: handleConnection chunks image ∧
        ((s.visits i).task = .closed → (s.visits i).received = handleConnection chunks image)) ∧
      (∀ line rest, (s.visits i).sent = line ++ 10 :: rest → 10 ∉ line → line.length ≤ maxHeadLen →
        (s.visits i).received <+: respond (line ++ [10]) image) ∧
      ∀ (more : List (ServingAction ι)) (s' : Serving ι), s.running = false →
        more.foldlM (step image) s = .ok s' → (s.visits i).task = .waiting → (s'.visits i).task = .waiting := by
  obtain ⟨chunks, served⟩ := served_of_run reached i
  refine ⟨⟨chunks, served.chunked, ⟨_, served.whole⟩, served.bounded, ?_, served.received_prefix,
    ?_⟩, ?_, fun more s' stopped run => (waiting_of_stopped stopped run).2 i⟩
  · intro buf reading
    have stands := served.stands
    rw [reading] at stands
    exact stands.1
  · intro closed
    have stands := served.stands
    rw [closed] at stands
    exact stands.2
  · exact fun line rest sent single short => received_line reached sent single short

/-! ## Two clients -/

def sampleServed : ServedImage :=
  .newXml "sha256:0a".toList (utf8 "<session/>".toList)

/-- One client sends a part of a request and breaks off, the other one sends a whole request. -/
def sampleServing : List (ServingAction Bool) :=
  [.visit false (.sends (utf8 "GET /".toList)), .visit false .accepted, .visit false (.reads 3),
    .visit true (.sends (utf8 (requestLine "/session/0a".toList))), .visit false .breaks,
    .visit true (.sends (utf8 "\r\nHost: broker\r\nConnection: close\r\nAccept: */*\r\n\r\n".toList)),
    .visit true .accepted, .shutsDown]

theorem sampleServing_runs :
    ∃ s, run sampleServed sampleServing = .ok s ∧ s.running = false ∧
      s.visits false =
        { sent := utf8 "GET /".toList, arriving := utf8 " /".toList, finished := false
          task := .failed, received := [] } ∧
      (s.visits true).task = .reading [] ∧
      (s.visits true).sent = utf8 (requestLine "/session/0a".toList) ++
        utf8 "\r\nHost: broker\r\nConnection: close\r\nAccept: */*\r\n\r\n".toList := by
  have done : (run sampleServed sampleServing).map
      (fun s => (s.running, s.visits false, (s.visits true).task, (s.visits true).sent)) =
      .ok (false,
        { sent := utf8 "GET /".toList, arriving := utf8 " /".toList, finished := false
          task := .failed, received := [] }, .reading [],
        utf8 (requestLine "/session/0a".toList) ++
          utf8 "\r\nHost: broker\r\nConnection: close\r\nAccept: */*\r\n\r\n".toList) := by
    decide
  cases reached : run sampleServed sampleServing with
  | error e =>
      rw [reached] at done
      cases done
  | ok s =>
      rw [reached] at done
      obtain ⟨running, done⟩ := Prod.mk.inj (Except.ok.inj done)
      obtain ⟨broken, done⟩ := Prod.mk.inj done
      obtain ⟨task, sent⟩ := Prod.mk.inj done
      exact ⟨s, rfl, running, broken, task, sent⟩

theorem sampleServing_own :
    ∃ s, run sampleServed sampleServing = .ok s ∧
      (∃ chunks, chunks.flatten <+: utf8 "GET /".toList ∧
        (s.visits false).received <+: handleConnection chunks sampleServed) ∧
      (s.visits true).received <+:
        respond (utf8 (requestLine "/session/0a".toList) ++ [13] ++ [10]) sampleServed := by
  obtain ⟨s, reached, _, broken, _, sent⟩ := sampleServing_runs
  have own := answers_own_request reached
  have whole : (s.visits true).sent = (utf8 (requestLine "/session/0a".toList) ++ [13]) ++
      10 :: utf8 "Host: broker\r\nConnection: close\r\nAccept: */*\r\n\r\n".toList := by
    rw [sent]
    decide
  obtain ⟨chunks, _, front, _, _, received, _⟩ := (own false).1
  rw [broken] at front
  exact ⟨s, reached, ⟨chunks, front, received⟩,
    (own true).2.1 _ _ whole (by decide) (by decide)⟩

end Serving

end Simulboot
