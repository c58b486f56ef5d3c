import SpectreRelay.Lib.Progress
import SpectreRelay.Server.Conservation

/-!
# Every call completes

The relay's own steps are those of unfinished `deliver` calls and of flushes; new
frames, requests, connections and purges come from outside. Calls and flushes
feed each other: a failed flush puts messages back that the flush of another
session drains again. Each session drains once, so the work that is left can be
counted (`State.work`): every step of the relay's own lowers it, whichever is
taken and whichever writes fail. When none is left, every message that was
handed in was written, is queued, or was discarded.
-/

namespace SpectreRelay.Server.Delivery
set_option autoImplicit false
open Lib Model

/-- The steps of `deliver` and `FlushQueue`. -/
def Label.Inner : Label → Prop
  | .lookup _ | .write _ _ | .enqueue _ _ | .drain _ _ _ | .flushWrite _ _ | .requeue _ _ => True
  | .frame _ _ _ | .post _ _ | .register _ _ | .unregister _ | .purge _ _ => False

instance (l : Label) : Decidable l.Inner :=
  match l with
  | .lookup _ | .write _ _ | .enqueue _ _ | .drain _ _ _ | .flushWrite _ _ | .requeue _ _ => .isTrue trivial
  | .frame _ _ _ | .post _ _ | .register _ _ | .unregister _ | .purge _ _ => .isFalse id

/-! ## Counting what is left -/

/-- The steps that a call has before it. -/
def Stage.work : Stage → Nat
  | lookup => 3
  | write _ => 2
  | enqueue => 1

/-- The steps that a session has before it, if it drains no more than `n` messages. -/
def Phase.work (n : Nat) : Phase → Nat
  | registered => n + 3
  | flushing pending => pending.length + 2
  | requeueing pending => pending.length + 1
  | serving => 0

namespace State

/-- The messages that a drain can find, now or later. -/
def messages (s : State) : Nat :=
  s.store.table.rows.length + s.calls.length + (s.sessions.map fun ss => ss.phase.pending.length).sum

/-- An upper bound of the steps that all calls and sessions have before them. -/
def work (s : State) : Nat :=
  (s.calls.map fun c => c.stage.work).sum + (s.sessions.map fun ss => ss.phase.work s.messages).sum

end State

theorem Phase.work_mono {n n' : Nat} (less : n' ≤ n) (p : Phase) : p.work n' ≤ p.work n := by
  cases p with
  | registered => simp only [work]; omega
  | flushing pending => exact Nat.le_refl _
  | requeueing pending => exact Nat.le_refl _
  | serving => exact Nat.le_refl _

theorem sessions_work_mono {n n' : Nat} (less : n' ≤ n) (sessions : List Session) :
    (sessions.map fun ss => ss.phase.work n').sum ≤ (sessions.map fun ss => ss.phase.work n).sum :=
  List.sum_le_sum fun ss _ => Phase.work_mono less ss.phase

theorem Phase.work_flush (n : Nat) (pending : List (Nat × QueuedMessage)) : (flush pending).work n ≤ pending.length + 2 := by
  cases pending with
  | nil => exact Nat.zero_le _
  | cons next left => exact Nat.le_refl _

theorem Phase.work_requeue (n : Nat) (pending : List (Nat × QueuedMessage)) :
    (requeue pending).work n ≤ pending.length + 1 := by
  cases pending with
  | nil => exact Nat.zero_le _
  | cons next left => exact Nat.le_refl _

section Rows

variable {P : Platform}

theorem length_delete_le (t : Table QueueRow) (p : QueueRow → Bool) : (t.delete p).rows.length ≤ t.rows.length :=
  List.length_filter_le _ _

/-- An `Enqueue` adds one row at most. -/
theorem length_enqueue_le (s : Store) (r : Bytes) (m : QueuedMessage) (t : Stamp) :
    (s.enqueue P r m t.io).table.rows.length ≤ s.table.rows.length + 1 := by
  have fewer := length_delete_le s.table fun row => row.recipientID = r ∧ Store.expired t.deleteAt row
  rw [Stamp.io, Store.enqueue_table]
  split
  · exact Nat.le_succ_of_le fewer
  · simp only [Table.insert, List.length_append, List.length_singleton]
    exact Nat.succ_le_succ fewer

/-- A drain returns no more messages than it removes rows. -/
theorem length_drained_le (s : Store) (r : Bytes) (now : Time) (fileNonce : Block 12) :
    (s.drainQueue P r (.clean now fileNonce)).1.table.rows.length +
      (s.drainedRows P r (.clean now fileNonce)).length ≤ s.table.rows.length := by
  have read : (s.drainedRows P r (.clean now fileNonce)).length ≤
      (s.table.select fun row => row.recipientID = r).length := by
    simp only [Store.drainedRows, Store.DrainIo.clean, Store.readRows_clean]
    exact List.length_filterMap_le _ _
  have split := List.length_eq_length_filter_add (l := s.table.rows) fun row => decide (row.2.recipientID = r)
  simp only [Store.drainQueue_table, Table.delete, Table.select] at read ⊢
  omega

end Rows

/-! ## One step -/

namespace State

variable {P : Platform} {s s' : State}

/-- A call goes on or ends; its message may have become a row. -/
theorem call_lowers {i : Nat} {c : Call} {rest : List Call} (new : List Call) (picked : pick s.calls i = some (c, rest))
    (calls : s'.calls = new ++ rest) (lower : (new.map fun c => c.stage.work).sum < c.stage.work)
    (rows : s'.store.table.rows.length + new.length ≤ s.store.table.rows.length + 1)
    (sessions : s'.sessions = s.sessions) : s'.messages ≤ s.messages ∧ s'.work < s.work := by
  have count := (pick_perm picked).length_eq
  have sum := sum_pick picked fun c => c.stage.work
  have messages : s'.messages ≤ s.messages := by
    simp only [State.messages, calls, sessions, List.length_append, List.length_cons] at count ⊢
    omega
  have others := sessions_work_mono messages s.sessions
  refine ⟨messages, ?_⟩
  simp only [work, calls, sessions, List.map_append, List.sum_append] at sum ⊢
  omega

/-- A session goes on; what it held may have become rows, and rows what it holds. -/
theorem session_lowers {j : Nat} {ss : Session} {rest : List Session} (ss' : Session)
    (picked : pick s.sessions j = some (ss, rest)) (sessions : s'.sessions = ss' :: rest)
    (lower : ∀ n, ss'.phase.work n < ss.phase.work s.messages)
    (rows : s'.store.table.rows.length + ss'.phase.pending.length ≤ s.store.table.rows.length + ss.phase.pending.length)
    (calls : s'.calls = s.calls) : s'.messages ≤ s.messages ∧ s'.work < s.work := by
  have pending := sum_pick picked fun ss => ss.phase.pending.length
  have sum := sum_pick picked fun ss => ss.phase.work s.messages
  have messages : s'.messages ≤ s.messages := by
    simp only [State.messages, calls, sessions, List.map_cons, List.sum_cons] at pending ⊢
    omega
  have others := sessions_work_mono messages rest
  have own := lower s'.messages
  refine ⟨messages, ?_⟩
  simp only [work, calls, sessions, List.map_cons, List.sum_cons]
  omega

/-- **Each step of the relay's own lowers the work that is left**, and makes no messages. -/
theorem step_lowers {l : Label} (own : l.Inner) (next : step P s l = some s') :
    s'.messages ≤ s.messages ∧ s'.work < s.work := by
  cases step_cases next with
  | frame => cases own
  | control => cases own
  | post => cases own
  | register => cases own
  | unregister => cases own
  | purge => cases own
  | @online i id r m rest conn picked found =>
    exact call_lowers [⟨id, r, m, .write conn⟩] picked rfl (by simp [Stage.work]) (Nat.le_refl _) rfl
  | @offline i id r m rest picked missing =>
    exact call_lowers [⟨id, r, m, .enqueue⟩] picked rfl (by simp [Stage.work]) (Nat.le_refl _) rfl
  | wrote picked text => exact call_lowers [] picked rfl (by simp [Stage.work]) (Nat.le_succ _) rfl
  | @writeFailed i id r m rest conn fails picked reason =>
    exact call_lowers [⟨id, r, m, .enqueue⟩] picked rfl (by simp [Stage.work]) (Nat.le_refl _) rfl
  | @enqueue i id r m rest t picked =>
    exact call_lowers [] picked rfl (by simp [Stage.work]) (length_enqueue_le s.store r m t) rfl
  | @drain j now fileNonce conn userID rest picked =>
    have rows := length_drained_le (P := P) s.store userID now fileNonce
    refine session_lowers _ picked rfl (fun n => ?_) ?_ rfl
    · have found : s.store.table.rows.length ≤ s.messages := by
        simp only [State.messages]
        omega
      refine Nat.lt_of_le_of_lt (Phase.work_flush n _) ?_
      simp only [Phase.work, List.length_map]
      omega
    · simpa only [Phase.pending_flush, Phase.pending_registered, List.length_map, List.length_nil, Nat.add_zero] using rows
  | @skipped j id conn userID m left rest fails picked text =>
    refine session_lowers _ picked rfl (fun n => ?_) ?_ rfl
    · refine Nat.lt_of_le_of_lt (Phase.work_flush n left) ?_
      simp only [Phase.work, List.length_cons]
      omega
    · simp only [Phase.pending_flush, Phase.pending_flushing, List.length_cons]
      omega
  | @flushed j id conn userID frame m left rest picked text =>
    refine session_lowers _ picked rfl (fun n => ?_) ?_ rfl
    · refine Nat.lt_of_le_of_lt (Phase.work_flush n left) ?_
      simp only [Phase.work, List.length_cons]
      omega
    · simp only [Phase.pending_flush, Phase.pending_flushing, List.length_cons]
      omega
  | flushFailed picked => exact session_lowers _ picked rfl (fun n => Nat.lt_succ_self _) (Nat.le_refl _) rfl
  | @requeue j id conn userID m left rest t picked =>
    have rows := length_enqueue_le (P := P) s.store userID m t
    refine session_lowers ⟨conn, userID, .requeue left⟩ picked rfl (fun n => ?_) ?_ rfl
    · refine Nat.lt_of_le_of_lt (Phase.work_requeue n left) ?_
      simp only [Phase.work, List.length_cons]
      omega
    · simp only [State.enqueue, Phase.pending_requeue, Phase.pending_requeueing, List.length_cons]
      omega

/-! ## Progress -/

/-- No call is unfinished and every session is in its read loop. -/
def Quiet (s : State) : Prop := s.calls = [] ∧ ∀ ss ∈ s.sessions, ss.phase = .serving

/-- A session that flushes or puts back has something left. -/
def Busy (s : State) : Prop := ∀ ss ∈ s.sessions, ss.phase ≠ .flushing [] ∧ ss.phase ≠ .requeueing []

/-- One session has another phase. -/
theorem Busy.proceed (h : Busy s) {j : Nat} {ss ss' : Session} {rest : List Session}
    (picked : pick s.sessions j = some (ss, rest)) (busy : ss'.phase ≠ .flushing [] ∧ ss'.phase ≠ .requeueing [])
    (sessions : s'.sessions = ss' :: rest) : Busy s' := by
  intro other inside
  rw [sessions] at inside
  rcases List.mem_cons.1 inside with rfl | old
  · exact busy
  · exact h other (mem_of_pick_rest picked old)

theorem hand_sessions (s : State) (call : Option (Bytes × QueuedMessage)) (origin : Origin) :
    (s.hand call origin).sessions = s.sessions := by
  rcases hand_cases s call origin with ⟨posts, same⟩ | ⟨r, m, name, _, _, same⟩
  · rw [same]
  · rw [same]

theorem busy_flush (pending : List (Nat × QueuedMessage)) :
    Phase.flush pending ≠ .flushing [] ∧ Phase.flush pending ≠ .requeueing [] := by
  cases pending with
  | nil => exact ⟨nofun, nofun⟩
  | cons next left => exact ⟨nofun, nofun⟩

theorem busy_requeue (pending : List (Nat × QueuedMessage)) :
    Phase.requeue pending ≠ .flushing [] ∧ Phase.requeue pending ≠ .requeueing [] := by
  cases pending with
  | nil => exact ⟨nofun, nofun⟩
  | cons next left => exact ⟨nofun, nofun⟩

theorem Busy.step {l : Label} (h : Busy s) (next : State.step P s l = some s') : Busy s' := by
  cases step_cases next with
  | frame =>
    rw [Busy, hand_sessions]
    exact h
  | control => exact h
  | post =>
    rw [Busy, hand_sessions]
    exact h
  | online => exact h
  | offline => exact h
  | wrote => exact h
  | writeFailed => exact h
  | enqueue => exact h
  | register =>
    intro ss inside
    rcases List.mem_cons.1 inside with rfl | old
    · exact ⟨nofun, nofun⟩
    · exact h ss old
  | drain picked => exact h.proceed picked (busy_flush _) rfl
  | skipped picked => exact h.proceed picked (busy_flush _) rfl
  | flushed picked => exact h.proceed picked (busy_flush _) rfl
  | flushFailed picked =>
    refine h.proceed picked ?_ rfl
    exact ⟨nofun, nofun⟩
  | requeue picked => exact h.proceed picked (busy_requeue _) rfl
  | unregister picked => exact fun ss inside => h ss (mem_of_pick_rest picked inside)
  | purge => exact h

/-- An unfinished call can go on. -/
theorem call_progress {c : Call} {rest : List Call} (calls : s.calls = c :: rest) :
    ∃ l s', l.Inner ∧ State.step P s l = some s' := by
  have picked : pick s.calls 0 = some (c, rest) := by
    rw [calls]
    rfl
  obtain ⟨id, r, m, stage⟩ := c
  cases stage with
  | lookup => exact ⟨.lookup 0, _, trivial, by simp only [State.step, picked]; rfl⟩
  | write conn =>
    refine ⟨.write 0 true, { s with calls := ⟨id, r, m, .enqueue⟩ :: rest }, trivial, ?_⟩
    simp only [State.step, picked]
    cases marshalQueued m with
    | none => rfl
    | some frame => rfl
  | enqueue => exact ⟨.enqueue 0 .start, _, trivial, by simp only [State.step, picked]; rfl⟩

/-- A session before or in its flush can go on. -/
theorem session_progress (h : Busy s) {ss : Session} (inside : ss ∈ s.sessions) (busy : ss.phase ≠ .serving) :
    ∃ l s', l.Inner ∧ State.step P s l = some s' := by
  obtain ⟨j, bound, found⟩ := List.getElem_of_mem inside
  have picked : pick s.sessions j = some (ss, s.sessions.eraseIdx j) := by
    rw [pick, List.getElem?_eq_getElem bound, found, Option.map_some]
  have some_left := h ss inside
  obtain ⟨conn, userID, phase⟩ := ss
  cases phase with
  | registered =>
    exact ⟨.drain j Reference.start (.zeros 12), _, trivial, by simp only [State.step, picked]; rfl⟩
  | flushing pending =>
    cases pending with
    | nil => exact absurd rfl some_left.1
    | cons next left =>
      obtain ⟨id, m⟩ := next
      refine ⟨.flushWrite j true, ?_⟩
      cases text : marshalQueued m with
      | none => exact ⟨_, trivial, by simp only [State.step, picked, text]; rfl⟩
      | some frame => exact ⟨_, trivial, by simp only [State.step, picked, text]; rfl⟩
  | requeueing pending =>
    cases pending with
    | nil => exact absurd rfl some_left.2
    | cons next left =>
      obtain ⟨id, m⟩ := next
      exact ⟨.requeue j .start, _, trivial, by simp only [State.step, picked]; rfl⟩
  | serving => exact absurd rfl busy

theorem progress (h : Busy s) : Quiet s ∨ ∃ l s', l.Inner ∧ State.step P s l = some s' := by
  cases calls : s.calls with
  | cons c rest => exact .inr (call_progress calls)
  | nil =>
    by_cases quiet : ∀ ss ∈ s.sessions, ss.phase = .serving
    · exact .inl ⟨calls, quiet⟩
    · push Not at quiet
      obtain ⟨ss, inside, busy⟩ := quiet
      exact .inr (session_progress h inside busy)

end State

/-! ## Completion -/

/-- The place is one where a message can stay. -/
def Place.Final (s : State) (h : Handed) : Place → Prop
  | call _ => False
  | row r => r = h.recipientID
  | flush _ _ => False
  | written conn => (h.recipientID, conn) ∈ s.registered
  | discarded reason => reason.Justified

/-- When nothing is left to do, every message is in such a place. -/
theorem State.Quiet.final {P : Platform} {s : State} (quiet : s.Quiet) (inv : Inv P s) (conserved : Conserved s) {id : Nat}
    {h : Handed} (handed : s.handed[id]? = some h) : ∃ place, s.places id = [place] ∧ place.Final s h := by
  obtain ⟨place, only, inside, fits⟩ := inv.place conserved handed
  refine ⟨place, only, ?_⟩
  simp only [State.tokens, quiet.1, List.map_nil, List.nil_append, List.mem_append, List.mem_map, List.mem_flatMap] at inside
  rcases inside with ⟨row, -, same⟩ | ⟨ss, session, p, waiting, -⟩ | ⟨w, -, same⟩ | ⟨d, -, same⟩
  · cases same
    exact fits
  · rw [quiet.2 ss session] at waiting
    cases waiting
  · cases same
    exact fits
  · cases same
    exact fits

/-- **Every call completes.** From every state that is reached, a run of the relay's own steps, whichever are taken and
whichever writes fail, has at most `work` steps; when no more can be taken, no call or flush is unfinished and every
message that was handed in was written to its recipient, is queued for it, or was discarded for a reason that holds. -/
theorem calls_complete (P : Platform) (store : Store) (router : Router) (labels : List Label) (s : State)
    (reached : run (State.step P) (State.init store router) labels = some s) :
    (∀ own t, (∀ l ∈ own, l.Inner) → run (State.step P) s own = some t → own.length ≤ s.work ∧
      ((∀ l t', l.Inner → State.step P t l ≠ some t') → t.Quiet ∧
        ∀ id h, t.handed[id]? = some h → ∃ place, t.places id = [place] ∧ place.Final t h)) ∧
    ∃ own t, (∀ l ∈ own, l.Inner) ∧ run (State.step P) s own = some t ∧ t.Quiet := by
  have lowers : ∀ s l s', l.Inner → State.step P s l = some s' → s'.work < s.work :=
    fun _ _ _ own next => (State.step_lowers own next).2
  have all : (Inv P s ∧ Conserved s) ∧ s.Busy :=
    run_invariant (P := fun s => (Inv P s ∧ Conserved s) ∧ s.Busy)
      (fun _ _ _ h next => ⟨⟨h.1.1.step next, h.1.2.step h.1.1 next⟩, h.2.step next⟩)
      ⟨⟨.init store router, .init store router⟩, fun _ inside => absurd inside List.not_mem_nil⟩ reached
  refine ⟨fun own t inner continued => ?_, ?_⟩
  · have after : (Inv P t ∧ Conserved t) ∧ t.Busy :=
      run_invariant (P := fun s => (Inv P s ∧ Conserved s) ∧ s.Busy)
        (fun _ _ _ h next => ⟨⟨h.1.1.step next, h.1.2.step h.1.1 next⟩, h.2.step next⟩) all continued
    have bound := run_bounded lowers inner continued
    refine ⟨by omega, fun stuck => ?_⟩
    have quiet : t.Quiet := (State.progress after.2).resolve_right fun ⟨l, t', own, next⟩ => stuck l t' own next
    exact ⟨quiet, fun id h handed => quiet.final after.1.1 after.1.2 handed⟩
  · exact run_completes lowers (fun _ _ _ h next => State.Busy.step h next) (fun _ h => State.progress h) s all.2

/-- A message is queued for bob, who connects twice; the first session drains it. -/
def bobTwice (now : Time) : List Label :=
  [.frame (ascii "ann") (SealedEnvelope.marshal ⟨ascii "bob", [1], 0, [], []⟩) now, .lookup 0, .enqueue 0 .start,
    .register (ascii "bob") 7, .register (ascii "bob") 8, .drain 1 now (.zeros 12)]

/-- The first flush fails and puts the message back, the second session drains it and writes it. -/
def bobAgain (now : Time) : List Label :=
  [.flushWrite 0 true, .requeue 0 .start, .drain 1 now (.zeros 12), .flushWrite 0 false]

theorem calls_complete_bob : ∃ s t, run (State.step Reference.platform)
      (State.init Reference.store (.new 65536 60 (ascii "a"))) (bobTwice Reference.start) = some s ∧
    run (State.step Reference.platform) s (bobAgain Reference.start) = some t ∧ s.work = 7 ∧
    (t.written.map fun w => (w.id, w.conn)) = [(0, 8)] ∧ (bobAgain Reference.start).length ≤ s.work ∧
    ∃ own t, (∀ l ∈ own, l.Inner) ∧ run (State.step Reference.platform) s own = some t ∧ t.Quiet := by
  have found : ((run (State.step Reference.platform) (State.init Reference.store (.new 65536 60 (ascii "a")))
      (bobTwice Reference.start)).bind fun s =>
      (run (State.step Reference.platform) s (bobAgain Reference.start)).map fun t =>
        (s.work, t.written.map fun w => (w.id, w.conn))) = some (7, [(0, 8)]) := by decide +kernel
  obtain ⟨s, reached, found⟩ := Option.bind_eq_some_iff.1 found
  obtain ⟨t, continued, both⟩ := Option.map_eq_some_iff.1 found
  obtain ⟨bounded, completes⟩ := calls_complete Reference.platform Reference.store _ _ s reached
  exact ⟨s, t, reached, continued, (Prod.mk.inj both).1, (Prod.mk.inj both).2,
    (bounded (bobAgain Reference.start) t (by decide) continued).1, completes⟩

end SpectreRelay.Server.Delivery
