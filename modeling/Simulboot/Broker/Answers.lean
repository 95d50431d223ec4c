import Simulboot.Broker.Serving
import Simulboot.Client.Exchange

/-!
# Every request is answered

Whatever the other clients of the broker do, one that has sent its request can be answered
by steps of its own task alone, and once that task has come to rest, it has been.
-/

set_option autoImplicit false

namespace Simulboot

open Library Library.Family Library.Http

/-! ## What a task has left to do -/

namespace Visit

variable {image : ServedImage} {chunks : List Bytes} {visit visit' : Visit}

/-- Steps of the broker. -/
def goesOn : VisitAction → Bool
  | .accepted | .reads _ | .readsEnd | .writes _ => true
  | .sends _ | .finishes | .breaks => false

/-- No response is longer. -/
def longest (image : ServedImage) : Nat :=
  max (writeResponse .ok image).length
    (max (writeResponse .notFound image).length (writeResponse .methodNotAllowed image).length)

private theorem length_respond_le (buf : Bytes) (image : ServedImage) :
    (respond buf image).length ≤ longest image := by
  have each : ∀ r, (writeResponse r image).length ≤ longest image := by
    intro r
    unfold longest
    cases r <;> omega
  exact each _

/-- The steps that a task may still take, beyond those that each take in some of a request. -/
def taskWork (image : ServedImage) : Handling → Nat
  | .waiting => longest image + 2
  | .reading _ => longest image + 1
  | .writing rest => rest.length
  | .closed | .failed => 0

def work (image : ServedImage) (visit : Visit) : Nat :=
  visit.arriving.length + taskWork image visit.task

private theorem work_step {action : VisitAction} (going : goesOn action = true)
    (stepped : visit.step image action = .ok visit') : visit'.work image < visit.work image := by
  unfold work
  cases action with
  | sends bytes => cases going
  | finishes => cases going
  | breaks => cases going
  | accepted =>
      obtain ⟨waiting, rfl⟩ := onlyIf_eq_ok.mp stepped
      rw [waiting]
      simp only [taskWork]
      omega
  | reads count =>
      obtain ⟨buf, reading, ⟨positive, _, within⟩, rfl⟩ := reads_eq_ok.mp stepped
      have response := length_respond_le (buf ++ visit.arriving.take count) image
      rw [reading, List.length_drop]
      split <;> simp only [taskWork] <;> omega
  | readsEnd =>
      obtain ⟨buf, reading, _, rfl⟩ := readsEnd_eq_ok.mp stepped
      have response := length_respond_le buf image
      rw [reading]
      simp only [taskWork]
      omega
  | writes count =>
      obtain ⟨rest, writing, ⟨positive, within⟩, rfl⟩ := writes_eq_ok.mp stepped
      rw [writing]
      split <;> simp only [taskWork, List.length_drop] <;> omega

private theorem Served.settled (served : visit.Served image chunks)
    (rest : Run.Rest (Visit.step image) goesOn visit) (intact : visit.task ≠ .failed) :
    visit.task = .closed ∨ visit.finished = false ∧ ¬ Enough visit.sent := by
  have stands := served.stands
  cases task : visit.task with
  | waiting => exact absurd (onlyIf_eq_ok.mpr ⟨task, rfl⟩) (rest .accepted _ rfl)
  | reading buf =>
      rw [task] at stands
      obtain ⟨rfl, short, _⟩ := stands
      have nothing : visit.arriving = [] := by
        by_contra some
        have positive := List.length_pos_iff.mpr some
        exact absurd (reads_eq_ok.mpr ⟨_, task, ⟨Nat.one_pos, by decide, positive⟩, rfl⟩)
          (rest (.reads 1) _ rfl)
      have whole := served.whole
      rw [nothing, List.append_nil] at whole
      refine .inr ⟨?_, whole ▸ short⟩
      by_contra ended
      exact absurd (readsEnd_eq_ok.mpr ⟨_, task, ⟨nothing, by simpa using ended⟩, rfl⟩)
        (rest .readsEnd _ rfl)
  | writing left =>
      rw [task] at stands
      have positive := List.length_pos_iff.mpr stands.1
      exact absurd (writes_eq_ok.mpr ⟨_, task, ⟨Nat.one_pos, positive⟩, rfl⟩)
        (rest (.writes 1) _ rfl)
  | closed => exact .inl rfl
  | failed => exact absurd task intact

private theorem goesOn_step {action : VisitAction} (going : goesOn action = true)
    (stepped : visit.step image action = .ok visit') :
    visit'.sent = visit.sent ∧ visit'.finished = visit.finished ∧
      (visit.task ≠ .failed → visit'.task ≠ .failed) ∧
      (visit.task ≠ .waiting → visit'.task ≠ .waiting) := by
  cases action with
  | sends bytes => cases going
  | finishes => cases going
  | breaks => cases going
  | accepted =>
      obtain ⟨_, rfl⟩ := onlyIf_eq_ok.mp stepped
      exact ⟨rfl, rfl, fun _ => nofun, fun _ => nofun⟩
  | reads count =>
      obtain ⟨buf, _, _, rfl⟩ := reads_eq_ok.mp stepped
      dsimp only
      split <;> exact ⟨rfl, rfl, fun _ => nofun, fun _ => nofun⟩
  | readsEnd =>
      obtain ⟨_, _, _, rfl⟩ := readsEnd_eq_ok.mp stepped
      exact ⟨rfl, rfl, fun _ => nofun, fun _ => nofun⟩
  | writes count =>
      obtain ⟨_, _, _, rfl⟩ := writes_eq_ok.mp stepped
      dsimp only
      split <;> exact ⟨rfl, rfl, fun _ => nofun, fun _ => nofun⟩

end Visit

namespace Serving

variable {ι : Type} [DecidableEq ι] {image : ServedImage} {actions : List (ServingAction ι)}
  {s s' : Serving ι} {i : ι}

/-- The broker can take no step for a connection. -/
def AtRest (image : ServedImage) (i : ι) (s : Serving ι) : Prop :=
  ∀ action s', Visit.goesOn action = true → s.step image (.visit i action) ≠ .ok s'

/-- The connection is accepted, or can be. -/
def Reached (i : ι) (s : Serving ι) : Prop :=
  s.running = true ∨ (s.visits i).task ≠ .waiting

/-- The broker with one of its connections in another state. -/
def withVisit (s : Serving ι) (i : ι) (visit : Visit) : Serving ι :=
  { s with visits := Function.update s.visits i visit }

@[simp] theorem withVisit_self (s : Serving ι) (visit : Visit) :
    (s.withVisit i visit).visits i = visit := by
  simp [withVisit]

private theorem withVisit_of_ne {j : ι} (other : j ≠ i) (s : Serving ι) (visit : Visit) :
    (s.withVisit i visit).visits j = s.visits j := by
  simp [withVisit, other]

variable {own : List VisitAction} {final : Visit}

/-- Its own steps take a connection on while the others stay as they are. -/
theorem run_own (within : Reached i s) (going : ∀ action ∈ own, Visit.goesOn action = true)
    (run : own.foldlM (Visit.step image) (s.visits i) = .ok final) :
    (own.map (.visit i)).foldlM (step image) s =
      .ok (s.withVisit i final) := by
  induction own generalizing s with
  | nil =>
      cases run
      have same : s.withVisit i (s.visits i) = s := by
        unfold withVisit
        rw [Function.update_eq_self]
      rw [same]
      rfl
  | cons action own ih =>
      rw [List.foldlM_cons] at run
      obtain ⟨middle, stepped, later⟩ := bind_eq_ok run
      obtain ⟨first, others⟩ := List.forall_mem_cons.mp going
      have moved : s.step image (.visit i action) =
          .ok (s.withVisit i middle) := by
        refine visit_eq_ok.mpr ⟨fun accepts => ?_, rfl, stepAt_eq_ok.mpr ⟨?_, ?_⟩⟩
        · subst accepts
          exact within.resolve_right (not_not_intro (onlyIf_eq_ok.mp stepped).1)
        · rw [withVisit_self]
          exact stepped
        · exact fun j other => withVisit_of_ne other s middle
      have left : Reached i (s.withVisit i middle) := by
        refine within.imp_right fun accepted => ?_
        rw [withVisit_self]
        exact (Visit.goesOn_step first stepped).2.2.2 accepted
      have further := ih left others (by rwa [withVisit_self])
      have same : (s.withVisit i middle).withVisit i final = s.withVisit i final := by
        unfold withVisit
        rw [Function.update_idem]
      rw [same] at further
      exact Run.cons moved further

private theorem atRest_iff (within : Reached i s) :
    AtRest image i s ↔ Run.Rest (Visit.step image) Visit.goesOn (s.visits i) := by
  constructor
  · intro rest action after going stepped
    have only : ∀ other ∈ [action], Visit.goesOn other = true :=
      List.forall_mem_singleton.mpr going
    have moved := run_own within only (Run.single stepped)
    obtain ⟨middle, first, _⟩ := bind_eq_ok moved
    exact rest action _ going first
  · intro rest action after going stepped
    obtain ⟨_, _, moved⟩ := visit_eq_ok.mp stepped
    exact rest action _ going (stepAt_eq_ok.mp moved).1

private theorem kept_of_going {more : List (ServingAction ι)}
    (going : ∀ action, .visit i action ∈ more → Visit.goesOn action = true)
    (run : more.foldlM (step image) s = .ok s') :
    (s'.visits i).sent = (s.visits i).sent ∧ (s'.visits i).finished = (s.visits i).finished ∧
      ((s.visits i).task ≠ .failed → (s'.visits i).task ≠ .failed) ∧
      ((s.visits i).task ≠ .waiting → (s'.visits i).task ≠ .waiting) := by
  refine @Run.invariant _ _ _ _ (fun t : Serving ι => (t.visits i).sent = (s.visits i).sent ∧
    (t.visits i).finished = (s.visits i).finished ∧
      ((s.visits i).task ≠ .failed → (t.visits i).task ≠ .failed) ∧
        ((s.visits i).task ≠ .waiting → (t.visits i).task ≠ .waiting)) _ _ _ ?_
    ⟨rfl, rfl, id, id⟩ run
  intro action member before after ⟨sent, finished, intact, accepted⟩ stepped
  rcases visits_of_step stepped with ⟨j, act, rfl, _, _, moved⟩ | ⟨_, same⟩
  · obtain ⟨mine, others⟩ := stepAt_eq_ok.mp moved
    by_cases same : i = j
    · subst same
      have kept := Visit.goesOn_step (going act member) mine
      exact ⟨kept.1.trans sent, kept.2.1.trans finished, kept.2.2.1 ∘ intact,
        kept.2.2.2 ∘ accepted⟩
    · rw [others i same]
      exact ⟨sent, finished, intact, accepted⟩
  · rw [same]
    exact ⟨sent, finished, intact, accepted⟩

omit [DecidableEq ι] in
private theorem going_own (going : ∀ action ∈ own, Visit.goesOn action = true) :
    ∀ action, .visit i action ∈ own.map (ServingAction.visit i) → Visit.goesOn action = true := by
  intro action member
  obtain ⟨other, listed, same⟩ := List.mem_map.mp member
  cases same
  exact going action listed

/-- A task that has come to rest behind a whole request has answered its first line. -/
theorem answered_of_rest (reached : run image actions = .ok s)
    (intact : (s.visits i).task ≠ .failed) {line rest : Bytes}
    (sent : (s.visits i).sent = line ++ 10 :: rest) (single : 10 ∉ line)
    (short : line.length ≤ maxHeadLen)
    (complete : (s.visits i).finished = true ∨ Enough (s.visits i).sent)
    {more : List (ServingAction ι)}
    (going : ∀ action, .visit i action ∈ more → Visit.goesOn action = true)
    (ran : more.foldlM (step image) s = .ok s') (within : Reached i s')
    (atRest : AtRest image i s') :
    (s'.visits i).task = .closed ∧ (s'.visits i).received = respond (line ++ [10]) image := by
  have whole : run image (actions ++ more) = .ok s' := Run.append reached ran
  obtain ⟨chunks, served⟩ := served_of_run whole i
  obtain ⟨sameSent, sameFinished, alsoIntact, _⟩ := kept_of_going going ran
  rcases served.settled ((atRest_iff within).mp atRest) (alsoIntact intact) with
    closed | ⟨unfinished, less⟩
  · refine ⟨closed, ?_⟩
    have stands := served.stands
    rw [closed] at stands
    rw [stands.2]
    exact served.handleConnection_line (sameSent.trans sent) single short stands.1
  · rw [sameSent] at less
    rw [sameFinished] at unfinished
    rcases complete with finished | enough
    · rw [finished] at unfinished
      cases unfinished
    · exact absurd enough less

/-- Its own steps bring a connection to rest, in no more steps than it has work. -/
theorem exists_atRest (image : ServedImage) (within : Reached i s) :
    ∃ (own : List VisitAction) (final : Visit), (∀ action ∈ own, Visit.goesOn action = true) ∧
      own.length ≤ (s.visits i).work image ∧
      (own.map (.visit i)).foldlM (step image) s = .ok (s.withVisit i final) ∧
      Reached i (s.withVisit i final) ∧ AtRest image i (s.withVisit i final) := by
  obtain ⟨own, final, going, ran, rest⟩ :=
    @Run.exists_rest _ _ _ (Visit.step image) (fun _ => True) (Visit.work image) Visit.goesOn
      (fun _ _ _ going _ stepped => ⟨trivial, Visit.work_step going stepped⟩) (s.visits i) trivial
  have bound :=
    @Run.length_le_potential _ _ _ (Visit.step image) (fun _ => True) (Visit.work image) _ _ _
      (fun action member _ _ _ stepped =>
        ⟨trivial, Visit.work_step (going action member) stepped⟩) trivial ran
  have whole := run_own within going ran
  have left : Reached i (s.withVisit i final) :=
    within.imp_right (kept_of_going (going_own going) whole).2.2.2
  refine ⟨own, final, going, bound, whole, left, (atRest_iff left).mpr ?_⟩
  rwa [withVisit_self]

/-- A client that has sent its whole request can be answered by steps of its own task, and
however all of them go on, once that task is at rest the client has the response to its
request line. -/
theorem requests_answered (reached : run image actions = .ok s)
    (intact : (s.visits i).task ≠ .failed) (within : Reached i s) {line rest : Bytes}
    (sent : (s.visits i).sent = line ++ 10 :: rest) (single : 10 ∉ line)
    (short : line.length ≤ maxHeadLen)
    (complete : (s.visits i).finished = true ∨ Enough (s.visits i).sent) :
    (∃ (own : List VisitAction) (final : Visit), (∀ action ∈ own, Visit.goesOn action = true) ∧
        own.length ≤ (s.visits i).work image ∧
        (own.map (.visit i)).foldlM (step image) s = .ok (s.withVisit i final) ∧
        AtRest image i (s.withVisit i final)) ∧
      ∀ (more : List (ServingAction ι)) (s' : Serving ι),
        (∀ action, .visit i action ∈ more → Visit.goesOn action = true) →
        more.foldlM (step image) s = .ok s' → Reached i s' → AtRest image i s' →
          (s'.visits i).task = .closed ∧
            (s'.visits i).received = respond (line ++ [10]) image := by
  refine ⟨?_, fun more s' going ran within atRest =>
    answered_of_rest reached intact sent single short complete going ran within atRest⟩
  obtain ⟨own, final, going, bound, whole, _, rest⟩ := exists_atRest image within
  exact ⟨own, final, going, bound, whole, rest⟩

end Serving

/-! ## GET requests -/

section

variable {E : Type} {image : ServedImage}

private theorem respond_requestLine (image : ServedImage) {path : Str} (path_nonempty : path ≠ [])
    (solid : ∀ c ∈ path, isWhitespace c = false)
    (short : (utf8 (requestLine path)).length < maxHeadLen) :
    respond (utf8 (requestLine path) ++ [13] ++ [10]) image =
      writeResponse (route "GET".toList path image) image := by
  have one : handleConnection [utf8 (requestLine path) ++ [13] ++ [10]] image =
      respond (utf8 (requestLine path) ++ [13] ++ [10]) image := by
    rw [handleConnection_eq, readHead, if_neg (by simp), List.nil_append]
    dsimp only
    split <;> rfl
  have version : (utf8 (requestLine path)).length =
      (utf8 ("GET ".toList ++ path)).length + (utf8 " HTTP/1.1".toList).length := by
    rw [requestLine, utf8_append, List.length_append]
  have stream : [utf8 (requestLine path) ++ [13] ++ [10]].flatten =
      utf8 (requestLine path) ++ [13, 10] := by simp
  rw [← one]
  refine handleConnection_get (by simp) image stream path_nonempty solid ?_
  omega

private theorem responseBody_route (path : Str)
    (plain : ∀ c ∈ image.contentType, c.toNat < 128 ∧ c ≠ '\r') :
    responseBody (E := E) (writeResponse (route "GET".toList path image) image) =
      if route "GET".toList path image = .ok then .ok image.body
      else .error (.message
        [.text "session image fetch failed: HTTP/1.1 404 Not Found".toList]) := by
  have get : route "GET".toList path image ≠ .methodNotAllowed := by
    unfold route
    rw [if_neg (not_not_intro rfl)]
    split
    · split <;> nofun
    · nofun
  cases answer : route "GET".toList path image with
  | ok => exact responseBody_writeResponse plain
  | notFound => exact responseBody_of_notFound image
  | methodNotAllowed => exact absurd answer get

private theorem responseBody_prefix {part raw body : Bytes} (front : part <+: raw)
    (taken : responseBody (E := E) part = .ok body) :
    ∃ whole, responseBody (E := E) raw = .ok whole ∧ body <+: whole := by
  obtain ⟨rest, rfl⟩ := front
  obtain ⟨split, found, taken⟩ := bind_eq_ok taken
  have position : findWindow headerTerminator part = some split := by
    unfold contextNone at found
    cases window : findWindow headerTerminator part with
    | none =>
        rw [window] at found
        cases found
    | some position =>
        rw [window] at found
        cases found
        rfl
  have within := findWindow_le position
  have four : headerTerminator.length = 4 := rfl
  have same : (part ++ rest).take split = part.take split :=
    List.take_append_of_le_length (by omega)
  have later := findWindow_append rest position
  unfold responseBody
  simp only [later, contextNone, bind, Except.bind, same]
  dsimp only at taken
  split at taken
  · cases taken
  · cases taken
    rename_i accepted
    rw [if_neg accepted]
    refine ⟨_, rfl, ?_⟩
    rw [List.drop_append_of_le_length (by omega)]
    exact List.prefix_append _ _

end

namespace Serving

variable {ι : Type} [DecidableEq ι] {image : ServedImage} {actions : List (ServingAction ι)}
  {s : Serving ι} {i : ι} {E : Type}

private theorem getRequest_whole (host path : Str) (solid : ∀ c ∈ path, isWhitespace c = false) :
    ∃ rest, utf8 (getRequest host path) = (utf8 (requestLine path) ++ [13]) ++ 10 :: rest ∧
      10 ∉ utf8 (requestLine path) ++ [13] ∧ Enough (utf8 (getRequest host path)) := by
  have line : '\n' ∉ requestLine path := by
    have get : '\n' ∉ "GET ".toList := by decide
    have version : '\n' ∉ " HTTP/1.1".toList := by decide
    have blank : isWhitespace '\n' = true := by decide
    unfold requestLine
    simp only [List.mem_append, not_or]
    exact ⟨⟨get, not_mem_of_solid solid blank⟩, version⟩
  refine ⟨utf8 ("Host: ".toList ++ (host ++ "\r\nConnection: close\r\nAccept: */*\r\n\r\n".toList)),
    ?_, ?_, .inl ?_⟩
  · have literal : "\r\nHost: ".toList = "\r\n".toList ++ "Host: ".toList := by decide
    have ends : utf8 "\r\n".toList = [13, 10] := by decide
    rw [getRequest_eq, literal, utf8_append, List.append_assoc, utf8_append "\r\n".toList, ends]
    simp
  · rw [List.mem_append, not_or]
    exact ⟨feed_not_mem_utf8 line, by decide⟩
  · have literal : "\r\nConnection: close\r\nAccept: */*\r\n\r\n".toList =
        "\r\nConnection: close\r\nAccept: */*".toList ++ "\r\n\r\n".toList := by decide
    have ends : utf8 "\r\n\r\n".toList = headerTerminator := by decide
    rw [getRequest_eq, literal, utf8_append, utf8_append "\r\nHost: ".toList, utf8_append host,
      utf8_append _ "\r\n\r\n".toList, ends]
    have found : (findWindow headerTerminator
        (utf8 (requestLine path) ++ (utf8 "\r\nHost: ".toList ++
          (utf8 host ++ utf8 "\r\nConnection: close\r\nAccept: */*".toList)) ++
            headerTerminator ++ [])).isSome = true := findWindow_infix _ _
    simpa [findHeaderEnd] using found

/-- Whatever the other clients do, a client that sent a GET request and comes to rest takes the
parked document, or is told that it was not found; and where its connection breaks off it takes
no more than a front of the document. -/
theorem gets_served (reached : run image actions = .ok s) {host path : Str}
    (sent : (s.visits i).sent = utf8 (getRequest host path)) (path_nonempty : path ≠ [])
    (solid : ∀ c ∈ path, isWhitespace c = false)
    (short : (utf8 (requestLine path)).length < maxHeadLen)
    (plain : ∀ c ∈ image.contentType, c.toNat < 128 ∧ c ≠ '\r') :
    (∀ body, responseBody (E := E) (s.visits i).received = .ok body →
        route "GET".toList path image = .ok ∧ body <+: image.body) ∧
      ∀ (more : List (ServingAction ι)) (s' : Serving ι), (s.visits i).task ≠ .failed →
        (∀ action, .visit i action ∈ more → Visit.goesOn action = true) →
        more.foldlM (step image) s = .ok s' → Reached i s' → AtRest image i s' →
          responseBody (E := E) (s'.visits i).received =
            if route "GET".toList path image = .ok then .ok image.body
            else .error (.message
              [.text "session image fetch failed: HTTP/1.1 404 Not Found".toList]) := by
  obtain ⟨rest, split, single, enough⟩ := getRequest_whole host path solid
  have size : (utf8 (requestLine path) ++ [13]).length ≤ maxHeadLen := by
    rw [List.length_append, List.length_singleton]
    omega
  have response := respond_requestLine image path_nonempty solid short
  have routed := responseBody_route (E := E) path plain
  constructor
  · intro body taken
    have front := received_line reached (sent.trans split) single size
    rw [response] at front
    obtain ⟨whole, answered, within⟩ := responseBody_prefix front taken
    rw [routed] at answered
    split at answered
    · cases answered
      exact ⟨‹_›, within⟩
    · cases answered
  · intro more s' intact going ran within atRest
    obtain ⟨_, received⟩ := answered_of_rest reached intact (sent.trans split) single size
      (.inr (sent ▸ enough)) going ran within atRest
    rw [received, response, routed]

/-! ## A session that is fetched beside a broken connection -/

private theorem sampleServing_ready :
    ∃ s, run sampleServed sampleServing = .ok s ∧ (s.visits true).task ≠ .failed ∧
      Reached true s ∧
      (s.visits true).sent = utf8 (getRequest "broker".toList "/session/0a".toList) := by
  obtain ⟨s, reached, _, _, task, sent⟩ := sampleServing_runs
  refine ⟨s, reached, task ▸ nofun, .inr (task ▸ nofun), ?_⟩
  rw [sent]
  decide

theorem sampleServing_answered :
    ∃ (s : Serving Bool) (own : List VisitAction) (final : Visit),
      run sampleServed sampleServing = .ok s ∧
      (own.map (.visit true)).foldlM (step sampleServed) s = .ok (s.withVisit true final) ∧
      final.received =
        respond (utf8 (requestLine "/session/0a".toList) ++ [13] ++ [10]) sampleServed := by
  obtain ⟨s, reached, intact, within, sent⟩ := sampleServing_ready
  obtain ⟨rest, split, single, enough⟩ := getRequest_whole "broker".toList
    "/session/0a".toList (by decide)
  obtain ⟨own, final, going, _, whole, within', atRest⟩ :=
    exists_atRest sampleServed within
  have received := ((requests_answered reached intact within (sent.trans split) single (by decide)
    (.inr (sent ▸ enough))).2 _ _ (going_own going) whole within' atRest).2
  rw [withVisit_self] at received
  exact ⟨s, own, final, reached, whole, received⟩

theorem sampleServing_served :
    ∃ (s : Serving Bool) (own : List VisitAction) (final : Visit),
      run sampleServed sampleServing = .ok s ∧
      (own.map (.visit true)).foldlM (step sampleServed) s = .ok (s.withVisit true final) ∧
      responseBody (E := Unit) final.received = .ok (utf8 "<session/>".toList) := by
  obtain ⟨s, reached, intact, within, sent⟩ := sampleServing_ready
  obtain ⟨own, final, going, _, whole, within', atRest⟩ :=
    exists_atRest sampleServed within
  have served := (gets_served (E := Unit) reached sent (by decide) (by decide) (by decide)
    (by decide)).2 _ _ intact (going_own going) whole within' atRest
  have routed : route "GET".toList "/session/0a".toList sampleServed = .ok := by decide
  rw [withVisit_self, if_pos routed] at served
  exact ⟨s, own, final, reached, whole, served⟩

end Serving

end Simulboot
