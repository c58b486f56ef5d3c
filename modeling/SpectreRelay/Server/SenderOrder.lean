import SpectreRelay.Server.Tracking

/-!
# The order of one sender's messages

A sender's messages for a user are numbered as they are handed in, one `deliver`
call after the other. They wait in a line: those a session is flushing, those in
the queue, those a failed flush is putting back, and the call in progress.
Almost every step takes a message from its place to the next one or drops it, so
the numbers in the line, behind those already written, stay in order
(`InLine.step`). The exceptions are what `written_in_order` excludes: a user
becomes visible to `deliver` before the backlog is flushed (`overtaken`), and
what is enqueued during a flush is ahead of what the flush puts back.
-/

namespace SpectreRelay.Server.Delivery
set_option autoImplicit false
open Lib Model

/-! ## The line -/

/-- The messages that a session is writing to its connection. -/
def Phase.toFlush : Phase → List (Nat × QueuedMessage)
  | flushing pending => pending
  | _ => []

/-- The messages that a session is putting back. -/
def Phase.toReturn : Phase → List (Nat × QueuedMessage)
  | requeueing pending => pending
  | _ => []

@[simp] theorem Phase.toFlush_flush (pending : List (Nat × QueuedMessage)) : (flush pending).toFlush = pending := by
  cases pending <;> rfl

@[simp] theorem Phase.toReturn_flush (pending : List (Nat × QueuedMessage)) : (flush pending).toReturn = [] := by
  cases pending <;> rfl

@[simp] theorem Phase.toFlush_requeue (pending : List (Nat × QueuedMessage)) : (requeue pending).toFlush = [] := by
  cases pending <;> rfl

@[simp] theorem Phase.toReturn_requeue (pending : List (Nat × QueuedMessage)) : (requeue pending).toReturn = pending := by
  cases pending <;> rfl

theorem Phase.pending_eq (phase : Phase) : phase.pending = phase.toFlush ++ phase.toReturn := by
  cases phase with
  | flushing pending => exact (List.append_nil _).symm
  | _ => rfl

/-- The numbers of messages that meet `p`. -/
def numbers (p : Nat → Bool) (messages : List (Nat × QueuedMessage)) : List Nat := (messages.map Prod.fst).filter p

@[simp] theorem numbers_nil (p : Nat → Bool) : numbers p [] = [] := rfl

theorem numbers_cons (p : Nat → Bool) (id : Nat) (m : QueuedMessage) (left : List (Nat × QueuedMessage)) :
    numbers p ((id, m) :: left) = [id].filter p ++ numbers p left := List.filter_append [id] _

theorem numbers_append (p : Nat → Bool) (l r : List (Nat × QueuedMessage)) :
    numbers p (l ++ r) = numbers p l ++ numbers p r := by
  simp only [numbers, List.map_append, List.filter_append]

namespace State

section Line

variable (p : Nat → Bool) (s : State)

/-- The messages that were written, in the order of the writes. -/
def sentIds : List Nat := (s.written.map Written.id).filter p

/-- The messages that sessions are flushing. -/
def flushIds : List Nat := s.sessions.flatMap fun ss => numbers p ss.phase.toFlush

/-- The messages in the queue. -/
def queueIds : List Nat := (s.store.table.rows.map fun row => s.owner row.1).filter p

/-- The messages that sessions are putting back. -/
def returnIds : List Nat := s.sessions.flatMap fun ss => numbers p ss.phase.toReturn

/-- The messages of unfinished calls. -/
def openIds : List Nat := (s.calls.map Call.id).filter p

/-- The messages that a connection may still get from a flush, now or later. -/
def backlog : List Nat := s.flushIds p ++ s.queueIds p ++ s.returnIds p

/-- All messages that are not lost, the written ones first. -/
def line : List Nat := s.sentIds p ++ s.backlog p ++ s.openIds p

end Line

/-- The message is from the client `a` for the user `u`. -/
def fromTo (s : State) (a u : Bytes) (id : Nat) : Bool :=
  match s.handed[id]? with
  | some h => h.recipientID = u ∧ h.origin = .client a
  | none => false

/-- The sender starts a `deliver` call only when its last one for the user is finished. -/
def Sequential (a u : Bytes) (s : State) : Label → Prop
  | .frame senderID _ _ => senderID = a → s.openIds (s.fromTo a u) = []
  | _ => True

/-- A call of the sender finds the user only when none of the sender's messages is in the backlog. None is enqueued
while a failed flush puts some back, the user does not drain while a session holds some, and a flush does not fail while
some are in the queue. -/
def Undisturbed (a u : Bytes) (s : State) : Label → Prop
  | .lookup i => ∀ call ∈ pick s.calls i, s.fromTo a u call.1.id = true → (s.store.lookupClient u).isSome →
      s.backlog (s.fromTo a u) = []
  | .enqueue i _ => ∀ call ∈ pick s.calls i, s.fromTo a u call.1.id = true → s.returnIds (s.fromTo a u) = []
  | .drain j _ _ => ∀ session ∈ pick s.sessions j, session.1.userID = u →
      s.flushIds (s.fromTo a u) = [] ∧ s.returnIds (s.fromTo a u) = []
  | .flushWrite j true => ∀ session ∈ pick s.sessions j, numbers (s.fromTo a u) session.1.phase.toFlush ≠ [] →
      s.queueIds (s.fromTo a u) = []
  | _ => True

instance (a u : Bytes) (s : State) (l : Label) : Decidable (Sequential a u s l) :=
  match l with
  | .frame senderID _ _ => inferInstanceAs (Decidable (senderID = a → s.openIds (s.fromTo a u) = []))
  | .post .. | .lookup _ | .write .. | .enqueue .. | .register .. | .drain .. | .flushWrite .. | .requeue ..
  | .unregister _ | .purge .. => .isTrue trivial

instance (a u : Bytes) (s : State) (l : Label) : Decidable (Undisturbed a u s l) :=
  match l with
  | .lookup i => inferInstanceAs (Decidable (∀ call ∈ pick s.calls i, _ → _ → s.backlog (s.fromTo a u) = []))
  | .enqueue i _ => inferInstanceAs (Decidable (∀ call ∈ pick s.calls i, _ → s.returnIds (s.fromTo a u) = []))
  | .drain j _ _ => inferInstanceAs (Decidable (∀ session ∈ pick s.sessions j, _ → _ ∧ _))
  | .flushWrite j true =>
    inferInstanceAs (Decidable (∀ session ∈ pick s.sessions j, _ → s.queueIds (s.fromTo a u) = []))
  | .frame .. | .post .. | .write .. | .register .. | .flushWrite _ false | .requeue .. | .unregister _ | .purge .. =>
    .isTrue trivial

end State

/-! ## The parts of the line -/

section Parts

variable {P : Platform} {p : Nat → Bool} {s : State}

/-- What a session holds. -/
abbrev holds (p : Nat → Bool) (ss : Session) : List Nat := numbers p ss.phase.pending

theorem holds_eq (ss : Session) : holds p ss = numbers p ss.phase.toFlush ++ numbers p ss.phase.toReturn := by
  rw [holds, Phase.pending_eq, numbers_append]

/-- The messages that sessions hold, one session apart. -/
theorem ids_pick (alone : Lone (holds p) s.sessions) {j : Nat} {ss : Session} {rest : List Session}
    (picked : pick s.sessions j = some (ss, rest)) :
    s.flushIds p = numbers p ss.phase.toFlush ++ rest.flatMap (fun ss => numbers p ss.phase.toFlush) ∧
      s.returnIds p = numbers p ss.phase.toReturn ++ rest.flatMap (fun ss => numbers p ss.phase.toReturn) := by
  have same := (pick_perm picked).symm
  constructor
  · refine (alone.mono fun x none => ?_).flatMap_perm same
    rw [holds_eq] at none
    exact (List.append_eq_nil_iff.1 none).1
  · refine (alone.mono fun x none => ?_).flatMap_perm same
    rw [holds_eq] at none
    exact (List.append_eq_nil_iff.1 none).2

/-- A bag of at most one is what it is in any order. -/
theorem eq_of_perm {l l' : List Nat} (short : l.length ≤ 1) (same : l.Perm l') : l = l' := by
  match l, short with
  | [], _ => exact (List.nil_perm.1 same).symm
  | [n], _ => exact List.singleton_perm.1 same

/-- The messages of unfinished calls, one call apart. -/
theorem openIds_pick (single : (s.openIds p).length ≤ 1) {i : Nat} {c : Call} {rest : List Call}
    (picked : pick s.calls i = some (c, rest)) : s.openIds p = [c.id].filter p ++ (rest.map Call.id).filter p := by
  have same := ((pick_perm picked).symm.map Call.id).filter p
  exact (eq_of_perm single same).trans (List.filter_append [c.id] _)

/-- One `Enqueue` adds the message at the end of the queue, or drops it. -/
theorem queueIds_enqueue (s : State) (id : Nat) (r : Bytes) (m : QueuedMessage) (t : Stamp) :
    ((State.enqueue P s id r m t).queueIds p).Sublist (s.queueIds p ++ [id].filter p) := by
  have purged : ((Store.purgeOf s.store.table r t.deleteAt).rows.map fun row => s.owner row.1).Sublist
      (s.store.table.rows.map fun row => s.owner row.1) := List.filter_sublist.map _
  by_cases full : Store.Full s.store.table r t.deleteAt
  · simp only [State.queueIds, State.enqueue, Stamp.io, Store.enqueue_table, full, if_true]
    exact (purged.filter p).trans (List.sublist_append_left _ _)
  · have old : ∀ row ∈ (Store.purgeOf s.store.table r t.deleteAt).rows,
        Function.update s.owner s.store.table.next id row.1 = s.owner row.1 := fun row inside =>
      Function.update_of_ne (Nat.ne_of_lt (s.store.table.below row (List.mem_filter.1 inside).1)) _ _
    have new : Function.update s.owner s.store.table.next id (Store.purgeOf s.store.table r t.deleteAt).next = id :=
      Function.update_self ..
    simp only [State.queueIds, State.enqueue, Stamp.io, Store.enqueue_table, full, if_false, Table.insert, List.map_append,
      List.map_cons, List.map_nil, List.filter_append, List.map_congr_left old, new]
    exact (purged.filter p).append_right _

end Parts

/-! ## Every step keeps the line -/

/-- The numbers of the messages in `p` stand in order, and a call that is about to write has no backlog before it. -/
structure InLine (p : Nat → Bool) (s : State) : Prop where
  order : (s.line p).Pairwise (· < ·)
  writing : ∀ c ∈ s.calls, p c.id = true → ∀ conn, c.stage = .write conn → s.backlog p = []
  alone : Lone (holds p) s.sessions
  single : (s.openIds p).length ≤ 1

namespace InLine

variable {P : Platform} {p : Nat → Bool} {s s' : State}

theorem init (p : Nat → Bool) (store : Store) (router : Router) : InLine p (State.init store router) where
  order := .nil
  writing := fun _ inside => absurd inside List.not_mem_nil
  alone := .nil
  single := Nat.zero_le _

/-- A step of a session or of the queue: the line gets shorter, and nothing new is in the backlog. -/
theorem shift (h : InLine p s) (calls : s'.calls = s.calls) (line : (s'.line p).Sublist (s.line p))
    (fewer : s'.backlog p ⊆ s.backlog p) (alone : Lone (holds p) s'.sessions) : InLine p s' where
  order := h.order.sublist line
  writing c inside mine conn writing := by
    rw [calls] at inside
    rw [h.writing c inside mine conn writing] at fewer
    exact List.subset_nil.1 fewer
  alone
  single := by
    rw [State.openIds, calls]
    exact h.single

/-! ### Calls -/

/-- A call that goes on with another stage. -/
theorem proceed (h : InLine p s) {i id : Nat} {r : Bytes} {m : QueuedMessage} {stage next : Stage} {rest : List Call}
    (picked : pick s.calls i = some (⟨id, r, m, stage⟩, rest))
    (free : ∀ conn, next = .write conn → p id = true → s.backlog p = []) :
    InLine p { s with calls := ⟨id, r, m, next⟩ :: rest } := by
  have same : State.openIds p { s with calls := ⟨id, r, m, next⟩ :: rest } = s.openIds p := by
    rw [openIds_pick h.single picked]
    exact List.filter_append [id] _
  refine ⟨?_, ?_, h.alone, by rw [same]; exact h.single⟩
  · have order := h.order
    rw [State.line, ← same] at order
    exact order
  · intro c inside mine conn writing
    rcases List.mem_cons.1 inside with rfl | old
    · exact free conn writing mine
    · exact h.writing c (mem_of_pick_rest picked old) mine conn writing

/-- If the picked call is of these messages, no other is. -/
theorem no_other (h : InLine p s) {i : Nat} {c : Call} {rest : List Call} (picked : pick s.calls i = some (c, rest))
    (mine : p c.id = true) : (rest.map Call.id).filter p = [] := by
  have single := h.single
  rw [openIds_pick h.single picked, List.filter_cons_of_pos mine, List.filter_nil, List.length_append,
    List.length_singleton] at single
  exact List.eq_nil_of_length_eq_zero (by omega)

theorem not_mine {l : List Call} (none : (l.map Call.id).filter p = []) {c : Call} (inside : c ∈ l) : p c.id ≠ true :=
  fun mine => absurd (List.mem_filter.2 ⟨List.mem_map_of_mem inside, mine⟩) (by rw [none]; exact List.not_mem_nil)

/-- A direct write: the message goes to the end of what was written. -/
theorem wrote (h : InLine p s) {i id : Nat} {r frame : Bytes} {m : QueuedMessage} {rest : List Call} {conn : Conn}
    (picked : pick s.calls i = some (⟨id, r, m, .write conn⟩, rest)) :
    InLine p { s with calls := rest, written := s.written ++ [⟨id, conn, frame⟩] } := by
  have calls := openIds_pick h.single picked
  have sent : State.sentIds p { s with calls := rest, written := s.written ++ [⟨id, conn, frame⟩] } =
      s.sentIds p ++ [id].filter p := by
    simp only [State.sentIds, List.map_append, List.filter_append]
    rfl
  have line : State.line p { s with calls := rest, written := s.written ++ [⟨id, conn, frame⟩] } = s.line p := by
    show State.sentIds p _ ++ s.backlog p ++ (rest.map Call.id).filter p = s.sentIds p ++ s.backlog p ++ s.openIds p
    rw [sent, calls]
    cases mine : p id with
    | true =>
      rw [h.writing _ (mem_of_pick picked) mine conn rfl]
      simp only [List.append_nil, List.append_assoc]
    | false => simp only [List.filter_cons, mine, List.filter_nil, List.append_nil, List.nil_append, Bool.false_eq_true,
        if_false]
  refine ⟨by rw [line]; exact h.order, ?_, h.alone, ?_⟩
  · exact fun c inside => h.writing c (mem_of_pick_rest picked inside)
  · have single := h.single
    rw [calls, List.length_append] at single
    show ((rest.map Call.id).filter p).length ≤ 1
    omega

/-- A call that enqueues while nothing is being put back. -/
theorem enqueue (h : InLine p s) {i id : Nat} {r : Bytes} {m : QueuedMessage} {rest : List Call}
    (picked : pick s.calls i = some (⟨id, r, m, .enqueue⟩, rest)) (none : p id = true → s.returnIds p = []) (t : Stamp) :
    InLine p (State.enqueue P { s with calls := rest } id r m t) := by
  have rows := queueIds_enqueue (P := P) (p := p) { s with calls := rest } id r m t
  have calls := openIds_pick h.single picked
  have tail : ((rest.map Call.id).filter p).length ≤ 1 := by
    have single := h.single
    rw [calls, List.length_append] at single
    omega
  cases mine : p id with
  | true =>
    have last := h.no_other picked mine
    refine ⟨h.order.sublist ?_, fun c inside own => absurd own (not_mine last inside), h.alone, tail⟩
    show (s.sentIds p ++ (s.flushIds p ++ State.queueIds p _ ++ s.returnIds p) ++ (rest.map Call.id).filter p).Sublist
      (s.sentIds p ++ (s.flushIds p ++ s.queueIds p ++ s.returnIds p) ++ s.openIds p)
    rw [none mine, calls, last]
    simp only [List.append_nil, List.append_assoc]
    exact (rows.append_left _).append_left _
  | false =>
    have dropped : [id].filter p = [] := by simp [mine]
    rw [dropped, List.append_nil] at rows
    refine ⟨h.order.sublist ?_, ?_, h.alone, tail⟩
    · show (s.sentIds p ++ (s.flushIds p ++ State.queueIds p _ ++ s.returnIds p) ++ (rest.map Call.id).filter p).Sublist
        (s.sentIds p ++ (s.flushIds p ++ s.queueIds p ++ s.returnIds p) ++ s.openIds p)
      rw [calls, dropped, List.nil_append]
      exact (((rows.append_left _).append_right _).append_left _).append_right _
    · intro c inside own conn writing
      have before := h.writing c (mem_of_pick_rest picked inside) own conn writing
      have shorter : (State.backlog p (State.enqueue P { s with calls := rest } id r m t)).Sublist (s.backlog p) :=
        (rows.append_left _).append_right _
      rw [before] at shorter
      exact List.sublist_nil.1 shorter

/-! ### Sessions -/

/-- A session that writes its next message, or skips one that has no frame: the message goes to the end of what was
written, if it goes anywhere. -/
theorem flushed (h : InLine p s) {j id : Nat} {conn : Conn} {userID : Bytes} {m : QueuedMessage}
    {left : List (Nat × QueuedMessage)} {rest : List Session} {written : List Written}
    (picked : pick s.sessions j = some (⟨conn, userID, .flushing ((id, m) :: left)⟩, rest))
    (sent : ((written.map Written.id).filter p).Sublist (s.sentIds p ++ [id].filter p)) :
    InLine p { s with sessions := ⟨conn, userID, .flush left⟩ :: rest, written } := by
  obtain ⟨flushing, returning⟩ := ids_pick h.alone picked
  have flush : State.flushIds p { s with sessions := ⟨conn, userID, .flush left⟩ :: rest, written } =
      numbers p left ++ rest.flatMap fun ss => numbers p ss.phase.toFlush := by
    rw [State.flushIds, List.flatMap_cons, Phase.toFlush_flush]
  have back : State.returnIds p { s with sessions := ⟨conn, userID, .flush left⟩ :: rest, written } = s.returnIds p := by
    rw [returning, State.returnIds, List.flatMap_cons, Phase.toReturn_flush]
    rfl
  have head : numbers p (Phase.toFlush (.flushing ((id, m) :: left))) = [id].filter p ++ numbers p left :=
    numbers_cons p id m left
  refine h.shift rfl ?_ ?_ ?_
  · show ((written.map Written.id).filter p ++ (State.flushIds p _ ++ s.queueIds p ++ State.returnIds p _) ++
      s.openIds p).Sublist (s.sentIds p ++ (s.flushIds p ++ s.queueIds p ++ s.returnIds p) ++ s.openIds p)
    rw [flush, back, flushing, head]
    simp only [List.append_assoc]
    rw [← List.append_assoc (s.sentIds p)]
    exact sent.append_right _
  · show State.flushIds p _ ++ s.queueIds p ++ State.returnIds p _ ⊆ s.flushIds p ++ s.queueIds p ++ s.returnIds p
    rw [flush, back, flushing, head, List.append_assoc]
    simp only [List.append_assoc]
    exact List.subset_append_right _ _
  · refine (h.alone.perm (pick_perm picked).symm).replace fun none => ?_
    rw [holds_eq, head] at none
    have nothing := (List.append_eq_nil_iff.1 (List.append_eq_nil_iff.1 none).1).2
    simp only [holds, Phase.pending_flush]
    exact nothing

/-- A failed write while nothing is in the queue: what is left of the flush is to be put back. -/
theorem flushFailed (h : InLine p s) {j : Nat} {conn : Conn} {userID : Bytes} {pending : List (Nat × QueuedMessage)}
    {rest : List Session} (picked : pick s.sessions j = some (⟨conn, userID, .flushing pending⟩, rest))
    (empty : numbers p pending ≠ [] → s.queueIds p = []) :
    InLine p { s with sessions := ⟨conn, userID, .requeueing pending⟩ :: rest } := by
  obtain ⟨flushing, returning⟩ := ids_pick h.alone picked
  have lone := h.alone.perm (pick_perm picked).symm
  -- the messages move past the queue, which is empty if there are any
  have same : State.backlog p { s with sessions := ⟨conn, userID, .requeueing pending⟩ :: rest } = s.backlog p := by
    show rest.flatMap (fun ss => numbers p ss.phase.toFlush) ++ s.queueIds p ++
      (numbers p pending ++ rest.flatMap fun ss => numbers p ss.phase.toReturn) =
        s.flushIds p ++ s.queueIds p ++ s.returnIds p
    rw [flushing, returning]
    show _ = numbers p pending ++ _ ++ s.queueIds p ++ ([] ++ _)
    by_cases none : numbers p pending = []
    · rw [none]
      rfl
    · have others := lone.rest none
      have flushes : rest.flatMap (fun ss => numbers p ss.phase.toFlush) = [] := by
        refine List.flatMap_eq_nil_iff.2 fun ss inside => ?_
        have nothing := others ss inside
        rw [holds_eq] at nothing
        exact (List.append_eq_nil_iff.1 nothing).1
      rw [empty none, flushes]
      simp only [List.append_nil, List.nil_append]
  refine h.shift rfl ?_ ?_ (lone.replace fun none => none)
  · rw [State.line, same]
    exact List.Sublist.refl _
  · rw [same]
    exact List.Subset.refl _

/-- A message that is put back goes to the end of the queue, or is dropped. -/
theorem requeue (h : InLine p s) {j id : Nat} {conn : Conn} {userID : Bytes} {m : QueuedMessage}
    {left : List (Nat × QueuedMessage)} {rest : List Session}
    (picked : pick s.sessions j = some (⟨conn, userID, .requeueing ((id, m) :: left)⟩, rest)) (t : Stamp) :
    InLine p (State.enqueue P { s with sessions := ⟨conn, userID, .requeue left⟩ :: rest } id userID m t) := by
  obtain ⟨flushing, returning⟩ := ids_pick h.alone picked
  have rows := queueIds_enqueue (P := P) (p := p) { s with sessions := ⟨conn, userID, .requeue left⟩ :: rest } id userID m t
  have flush : State.flushIds p (State.enqueue P { s with sessions := ⟨conn, userID, .requeue left⟩ :: rest } id userID m t) =
      s.flushIds p := by
    rw [flushing]
    show List.flatMap _ (_ :: rest) = _
    rw [List.flatMap_cons, Phase.toFlush_requeue]
    rfl
  have back : State.returnIds p (State.enqueue P { s with sessions := ⟨conn, userID, .requeue left⟩ :: rest } id userID m t) =
      numbers p left ++ rest.flatMap fun ss => numbers p ss.phase.toReturn := by
    show List.flatMap _ (_ :: rest) = _
    rw [List.flatMap_cons, Phase.toReturn_requeue]
  have head : numbers p (Phase.toReturn (.requeueing ((id, m) :: left))) = [id].filter p ++ numbers p left :=
    numbers_cons p id m left
  have shorter : (State.backlog p
      (State.enqueue P { s with sessions := ⟨conn, userID, .requeue left⟩ :: rest } id userID m t)).Sublist (s.backlog p) := by
    rw [State.backlog, State.backlog, flush, back, returning, head]
    simp only [List.append_assoc]
    rw [← List.append_assoc (s.queueIds p)]
    exact (rows.append_right _).append_left _
  refine h.shift rfl ((shorter.append_left _).append_right _) shorter.subset ?_
  refine (h.alone.perm (pick_perm picked).symm).replace fun none => ?_
  rw [holds_eq, head] at none
  have nothing := (List.append_eq_nil_iff.1 (List.append_eq_nil_iff.1 none).2).2
  simp only [holds, Phase.pending_requeue]
  exact nothing

/-- Rows that are deleted. -/
theorem delete (h : InLine p s) {store : Store} {gone : QueueRow → Bool} {discarded : List (Nat × Discard)}
    (table : store.table = s.store.table.delete gone) : InLine p { s with store, discarded } := by
  have rows : (State.queueIds p { s with store, discarded }).Sublist (s.queueIds p) := by
    simp only [State.queueIds, table]
    exact (List.filter_sublist.map _).filter p
  have shorter : (State.backlog p { s with store, discarded }).Sublist (s.backlog p) :=
    (rows.append_left _).append_right _
  exact h.shift rfl ((shorter.append_left _).append_right _) shorter.subset h.alone

/-- A session without messages comes or goes. -/
theorem resting (h : InLine p s) {sessions : List Session} {store : Store} {registered : List (Bytes × Conn)}
    (table : store.table = s.store.table) (alone : Lone (holds p) sessions)
    (flush : sessions.flatMap (fun ss => numbers p ss.phase.toFlush) = s.flushIds p)
    (back : sessions.flatMap (fun ss => numbers p ss.phase.toReturn) = s.returnIds p) :
    InLine p { s with sessions, store, registered } := by
  have same : State.backlog p { s with sessions, store, registered } = s.backlog p := by
    simp only [State.backlog, State.flushIds, State.queueIds, State.returnIds] at flush back ⊢
    rw [flush, back, table]
  refine h.shift rfl ?_ ?_ alone
  · rw [State.line, same]
    exact List.Sublist.refl _
  · rw [same]
    exact List.Subset.refl _

end InLine

/-! ### The messages from `a` to `u` -/

section FromTo

variable {P : Platform} {a u : Bytes} {s : State}

theorem fromTo_iff {id : Nat} :
    s.fromTo a u id = true ↔ ∃ h, s.handed[id]? = some h ∧ h.recipientID = u ∧ h.origin = .client a := by
  unfold State.fromTo
  split
  · rename_i h found
    simp [found]
  · rename_i missing
    simp [missing]

/-- A message that is tracked for another user is not one of them. -/
theorem Tracked.not_fromTo {id : Nat} {r : Bytes} {m : QueuedMessage} (tracked : Tracked s.handed id r m) (other : r ≠ u) :
    s.fromTo a u id = false := by
  obtain ⟨h, found, mine, _⟩ := tracked
  refine Bool.eq_false_iff.2 fun yes => ?_
  obtain ⟨h', found', mine', _⟩ := fromTo_iff.1 yes
  rw [found] at found'
  cases found'
  exact other (mine.symm.trans mine')

/-- What a drain reads stood in the queue in this order. -/
theorem drained_sublist (inv : Inv P s) (p : Nat → Bool) (userID : Bytes) (now : Time) (fileNonce : Block 12) :
    (numbers p ((s.store.drainedRows P userID (.clean now fileNonce)).map fun row => (s.owner row.1, row.2))).Sublist
      (s.queueIds p) := by
  have decodes : ∀ row ∈ s.store.table.rows, ∃ m, Store.readPayload P s.store.key row.2.payload = some m := by
    intro row inside
    obtain ⟨m, decoded, _⟩ := inv.rows row inside
    exact ⟨m, decoded⟩
  have read := congrArg (List.map s.owner) (Store.drainedRows_numbers decodes userID now fileNonce)
  simp only [List.map_map] at read
  simp only [numbers, State.queueIds, List.map_map]
  refine List.Sublist.filter p ?_
  show ((s.store.drainedRows P userID (.clean now fileNonce)).map (s.owner ∘ Prod.fst)).Sublist _
  rw [read]
  exact (List.filter_sublist.trans List.filter_sublist).map _

/-- A drain leaves none of its user's messages in the table. -/
theorem emptied_of_drain {a userID : Bytes} (inv : Inv P s) {store : Store}
    (table : store.table = s.store.table.delete fun row => row.recipientID = userID) :
    (store.table.rows.map fun row => s.owner row.1).filter (s.fromTo a userID) = [] := by
  refine List.filter_eq_nil_iff.2 fun id inside => ?_
  rw [table] at inside
  obtain ⟨row, listed, rfl⟩ := List.mem_map.1 inside
  obtain ⟨stored, other⟩ := List.mem_filter.1 listed
  obtain ⟨m, _, _, tracked⟩ := inv.rows row stored
  rw [tracked.not_fromTo (by simpa using other)]
  exact Bool.false_ne_true

/-- A drain for another user returns none of these messages. -/
theorem numbers_drained_other {a u userID : Bytes} (inv : Inv P s) (other : userID ≠ u) (now : Time) (fileNonce : Block 12) :
    numbers (s.fromTo a u) ((s.store.drainedRows P userID (.clean now fileNonce)).map
      fun row => (s.owner row.1, row.2)) = [] := by
  refine List.filter_eq_nil_iff.2 fun id inside => ?_
  obtain ⟨p, listed, rfl⟩ := List.mem_map.1 inside
  obtain ⟨row, drained, rfl⟩ := List.mem_map.1 listed
  rw [(inv.drained drained).not_fromTo other]
  exact Bool.false_ne_true

/-- A drain while no flush for the user is unfinished: the queue becomes the flush. -/
theorem InLine.drain (inv : Inv P s) (h : InLine (s.fromTo a u) s) {j : Nat} {conn : Conn} {userID : Bytes}
    {rest : List Session} {now : Time} {fileNonce : Block 12} {store : Store} {discarded : List (Nat × Discard)}
    (picked : pick s.sessions j = some (⟨conn, userID, .registered⟩, rest))
    (table : store.table = s.store.table.delete fun row => row.recipientID = userID)
    (free : userID = u → s.flushIds (s.fromTo a u) = [] ∧ s.returnIds (s.fromTo a u) = []) :
    InLine (s.fromTo a u) { s with
      store, discarded, sessions := ⟨conn, userID, .flush ((s.store.drainedRows P userID (.clean now fileNonce)).map
        fun row => (s.owner row.1, row.2))⟩ :: rest } := by
  obtain ⟨flushing, returning⟩ := ids_pick h.alone picked
  have lone := h.alone.perm (pick_perm picked).symm
  by_cases mine : userID = u
  · subst mine
    obtain ⟨noFlush, noReturn⟩ := free rfl
    have noFlush' : rest.flatMap (fun ss => numbers (s.fromTo a userID) ss.phase.toFlush) = [] := by
      rw [flushing] at noFlush
      exact noFlush
    have noReturn' : rest.flatMap (fun ss => numbers (s.fromTo a userID) ss.phase.toReturn) = [] := by
      rw [returning] at noReturn
      exact noReturn
    have emptied := emptied_of_drain (a := a) inv table
    have read := drained_sublist inv (s.fromTo a userID) userID now fileNonce
    have shorter : (State.backlog (s.fromTo a userID) { s with
        store, discarded, sessions := ⟨conn, userID, .flush ((s.store.drainedRows P userID (.clean now fileNonce)).map
          fun row => (s.owner row.1, row.2))⟩ :: rest }).Sublist (s.backlog (s.fromTo a userID)) := by
      simp only [State.backlog, State.flushIds, State.queueIds, State.returnIds, List.flatMap_cons, Phase.toFlush_flush,
        Phase.toReturn_flush, noFlush', noReturn', emptied, numbers_nil, List.append_nil] at noFlush noReturn read ⊢
      rw [noFlush, noReturn, List.nil_append, List.append_nil]
      exact read
    refine h.shift rfl ((shorter.append_left _).append_right _) shorter.subset (Lone.cons_of_nil (fun ss inside => ?_) _)
    rw [holds_eq, List.flatMap_eq_nil_iff.1 noFlush' ss inside, List.flatMap_eq_nil_iff.1 noReturn' ss inside]
    rfl
  · have nothing := numbers_drained_other (a := a) inv mine now fileNonce
    have moved : InLine (s.fromTo a u) { s with sessions := ⟨conn, userID, .flush
        ((s.store.drainedRows P userID (.clean now fileNonce)).map fun row => (s.owner row.1, row.2))⟩ :: rest } := by
      refine h.resting rfl (lone.replace fun _ => ?_) ?_ ?_
      · simp only [holds, Phase.pending_flush]
        exact nothing
      · rw [flushing, List.flatMap_cons, Phase.toFlush_flush, nothing]
        rfl
      · rw [returning, List.flatMap_cons, Phase.toReturn_flush]
        rfl
    exact moved.delete table

/-- Every message in the line has been handed in. -/
theorem found_of_written (inv : Inv P s) {id : Nat} (inside : id ∈ s.written.map Written.id) : id < s.handed.length := by
  obtain ⟨w, listed, rfl⟩ := List.mem_map.1 inside
  obtain ⟨_, _, ⟨_, found, _⟩, _⟩ := inv.written w listed
  exact (List.getElem?_eq_some_iff.1 found).1

theorem found_of_row (inv : Inv P s) {id : Nat} (inside : id ∈ s.store.table.rows.map fun row => s.owner row.1) :
    id < s.handed.length := by
  obtain ⟨row, listed, rfl⟩ := List.mem_map.1 inside
  obtain ⟨_, _, _, _, found, _⟩ := inv.rows row listed
  exact (List.getElem?_eq_some_iff.1 found).1

theorem found_of_call (inv : Inv P s) {id : Nat} (inside : id ∈ s.calls.map Call.id) : id < s.handed.length := by
  obtain ⟨c, listed, rfl⟩ := List.mem_map.1 inside
  obtain ⟨_, found, _⟩ := inv.calls c listed
  exact (List.getElem?_eq_some_iff.1 found).1

theorem found_of_pending (inv : Inv P s) {ss : Session} (listed : ss ∈ s.sessions) {id : Nat}
    (inside : id ∈ ss.phase.pending.map Prod.fst) : id < s.handed.length := by
  obtain ⟨q, waiting, rfl⟩ := List.mem_map.1 inside
  obtain ⟨_, found, _⟩ := inv.pending ss listed q waiting
  exact (List.getElem?_eq_some_iff.1 found).1

theorem numbers_congr {p q : Nat → Bool} {l : List (Nat × QueuedMessage)} (same : ∀ id ∈ l.map Prod.fst, p id = q id) :
    numbers p l = numbers q l := List.filter_congr same

/-- Only the messages that were handed in matter. -/
theorem InLine.congr (inv : Inv P s) {p q : Nat → Bool} (h : InLine p s)
    (same : ∀ id < s.handed.length, p id = q id) : InLine q s := by
  have part {ss : Session} (listed : ss ∈ s.sessions) {l : List (Nat × QueuedMessage)} (sub : l ⊆ ss.phase.pending) :
      numbers p l = numbers q l :=
    numbers_congr fun id inside => same id (found_of_pending inv listed (List.map_subset _ sub inside))
  have flush : s.flushIds p = s.flushIds q := List.flatMap_congr fun ss listed =>
    part listed (by rw [Phase.pending_eq]; exact List.subset_append_left _ _)
  have back : s.returnIds p = s.returnIds q := List.flatMap_congr fun ss listed =>
    part listed (by rw [Phase.pending_eq]; exact List.subset_append_right _ _)
  have rows : s.queueIds p = s.queueIds q := List.filter_congr fun id inside => same id (found_of_row inv inside)
  have calls : s.openIds p = s.openIds q := List.filter_congr fun id inside => same id (found_of_call inv inside)
  have sent : s.sentIds p = s.sentIds q := List.filter_congr fun id inside => same id (found_of_written inv inside)
  have backlog : s.backlog p = s.backlog q := by rw [State.backlog, State.backlog, flush, rows, back]
  refine ⟨?_, ?_, ?_, ?_⟩
  · rw [State.line, ← sent, ← backlog, ← calls]
    exact h.order
  · intro c inside mine conn writing
    rw [← backlog]
    rw [← same c.id (found_of_call inv (List.mem_map_of_mem inside))] at mine
    exact h.writing c inside mine conn writing
  · refine List.Pairwise.imp_of_mem (fun {x y} first second either => ?_) h.alone
    rw [holds, holds, ← part first (List.Subset.refl _), ← part second (List.Subset.refl _)]
    exact either
  · rw [← calls]
    exact h.single

theorem line_lt (inv : Inv P s) {p : Nat → Bool} {id : Nat} (inside : id ∈ s.sentIds p ++ s.backlog p) :
    id < s.handed.length := by
  have pending {f : Phase → List (Nat × QueuedMessage)} (sub : ∀ phase, f phase ⊆ phase.pending)
      (listed : id ∈ s.sessions.flatMap fun ss => numbers p (f ss.phase)) : id < s.handed.length := by
    obtain ⟨ss, member, number⟩ := List.mem_flatMap.1 listed
    exact found_of_pending inv member (List.map_subset _ (sub ss.phase) (List.mem_filter.1 number).1)
  simp only [State.backlog, List.mem_append] at inside
  rcases inside with sent | (flush | row) | back
  · exact found_of_written inv (List.mem_filter.1 sent).1
  · exact pending (fun phase => by rw [Phase.pending_eq]; exact List.subset_append_left _ _) flush
  · exact found_of_row inv (List.mem_filter.1 row).1
  · exact pending (fun phase => by rw [Phase.pending_eq]; exact List.subset_append_right _ _) back

/-- A new call stands at the end of the line. -/
theorem InLine.hand (inv : Inv P s) (h : InLine (s.fromTo a u) s) (call : Option (Bytes × QueuedMessage)) (origin : Origin)
    (ready : origin = .client a → s.openIds (s.fromTo a u) = []) :
    InLine ((s.hand call origin).fromTo a u) (s.hand call origin) := by
  rcases State.hand_cases s call origin with ⟨posts, same⟩ | ⟨r, m, name, made, _, same⟩
  · rw [same]
    exact ⟨h.order, h.writing, h.alone, h.single⟩
  · rw [same]
    have agree : ∀ id < s.handed.length, s.fromTo a u id = State.fromTo { s with
        calls := ⟨s.handed.length, name, m, .lookup⟩ :: s.calls
        handed := s.handed ++ [⟨name, m, origin⟩] } a u id := by
      intro id below
      simp only [State.fromTo, List.getElem?_append_left below]
    have last : (s.handed ++ [⟨name, m, origin⟩])[s.handed.length]? = some ⟨name, m, origin⟩ := by simp
    have old := h.congr inv agree
    have before : s.openIds _ = s.openIds _ :=
      List.filter_congr fun id inside => agree id (found_of_call inv inside)
    generalize new : State.fromTo { s with
      calls := ⟨s.handed.length, name, m, .lookup⟩ :: s.calls
      handed := s.handed ++ [⟨name, m, origin⟩] } a u = p at old before ⊢
    have calls : State.openIds p { s with
        calls := ⟨s.handed.length, name, m, .lookup⟩ :: s.calls
        handed := s.handed ++ [⟨name, m, origin⟩] } = [s.handed.length].filter p ++ s.openIds p :=
      List.filter_append [s.handed.length] _
    -- the new call is the only one if it is one of these messages
    have only : p s.handed.length = true → s.openIds p = [] := by
      intro mine
      rw [← new] at mine
      obtain ⟨h', found, _, client⟩ := fromTo_iff.1 mine
      rw [last] at found
      cases found
      rw [← before]
      exact ready client
    have writing : ∀ c ∈ (⟨s.handed.length, name, m, .lookup⟩ : Call) :: s.calls, p c.id = true → ∀ conn,
        c.stage = .write conn → s.backlog p = [] := by
      intro c inside mine conn writing
      rcases List.mem_cons.1 inside with rfl | earlier
      · cases writing
      · exact old.writing c earlier mine conn writing
    cases mine : p s.handed.length with
    | true =>
      rw [only mine, List.append_nil, List.filter_cons_of_pos mine, List.filter_nil] at calls
      have order := old.order
      rw [State.line, only mine, List.append_nil] at order
      refine ⟨?_, writing, old.alone, Nat.le_of_eq (congrArg List.length calls)⟩
      show (s.sentIds p ++ s.backlog p ++ State.openIds p _).Pairwise (· < ·)
      rw [calls]
      refine List.pairwise_append.2 ⟨order, List.pairwise_singleton _ _, fun id inside next at' => ?_⟩
      rw [List.mem_singleton.1 at']
      exact line_lt inv inside
    | false =>
      rw [List.filter_cons_of_neg (by simp [mine]), List.filter_nil, List.nil_append] at calls
      refine ⟨?_, writing, old.alone, ?_⟩
      · show (s.sentIds p ++ s.backlog p ++ State.openIds p _).Pairwise (· < ·)
        rw [calls]
        exact old.order
      · rw [calls]
        exact old.single

/-- **Every step that does not disturb the line keeps it.** -/
theorem InLine.step (inv : Inv P s) (h : InLine (s.fromTo a u) s) {l : Label} (sequential : s.Sequential a u l)
    (undisturbed : s.Undisturbed a u l) {s' : State} (stepped : State.step P s l = some s') :
    InLine (s'.fromTo a u) s' := by
  cases State.step_cases stepped with
  | @frame senderID data now router call kind route =>
    have routed : InLine (State.fromTo { s with router } a u) { s with router } := ⟨h.order, h.writing, h.alone, h.single⟩
    have inv' : Inv P { s with router } :=
      ⟨inv.calls, inv.targets, inv.rows, inv.sessions, inv.pending, inv.clients, inv.written, inv.discarded⟩
    exact routed.hand inv' call _ fun client => sequential (by cases client; rfl)
  | control => exact h
  | post => exact h.hand inv _ _ nofun
  | @online i id r m rest conn picked found =>
    refine h.proceed picked fun _ _ mine => undisturbed _ picked mine ?_
    obtain ⟨handed, listed, own, _⟩ := inv.calls _ (mem_of_pick picked)
    obtain ⟨handed', listed', own', _⟩ := fromTo_iff.1 mine
    rw [listed] at listed'
    cases listed'
    have name : r = u := own.symm.trans own'
    rw [← name, found]
    rfl
  | offline picked missing => exact h.proceed picked nofun
  | wrote picked text => exact h.wrote picked
  | writeFailed picked reason => exact h.proceed picked nofun
  | enqueue picked => exact h.enqueue picked (undisturbed _ picked) _
  | register fresh =>
    refine h.resting rfl (List.pairwise_cons.2 ⟨fun _ _ => .inl rfl, h.alone⟩) rfl rfl
  | drain picked => exact h.drain inv picked rfl (undisturbed _ picked)
  | skipped picked text => exact h.flushed picked (List.sublist_append_left _ _)
  | @flushed j id conn userID frame m left rest picked text =>
    refine h.flushed picked ?_
    rw [List.map_append, List.filter_append]
    exact List.Sublist.refl _
  | flushFailed picked => exact h.flushFailed picked (undisturbed _ picked)
  | requeue picked => exact h.requeue picked _
  | unregister picked =>
    obtain ⟨flushing, returning⟩ := ids_pick h.alone picked
    exact h.resting (Store.unregister_table ..) (List.Pairwise.of_cons (h.alone.perm (pick_perm picked).symm))
      flushing.symm returning.symm
  | purge => exact h.delete rfl

end FromTo

/-- **Order of one sender.** In every run in which the sender waits for each of its calls and nothing disturbs the line,
the sender's messages for the user that were written have been written in the order in which they were handed in. -/
theorem written_in_order (P : Platform) (store : Store) (router : Router) (a u : Bytes) (labels : List Label) (s : State)
    (sequential : Always (State.step P) (State.Sequential a u) (State.init store router) labels)
    (undisturbed : Always (State.step P) (State.Undisturbed a u) (State.init store router) labels)
    (reached : run (State.step P) (State.init store router) labels = some s) :
    (s.sentIds (s.fromTo a u)).Pairwise (· < ·) := by
  have all : Inv P s ∧ InLine (s.fromTo a u) s :=
    run_invariant_under (C := fun s l => s.Sequential a u l ∧ s.Undisturbed a u l)
      (P := fun s => Inv P s ∧ InLine (s.fromTo a u) s)
      (fun _ _ _ before both stepped => ⟨before.1.step stepped, before.2.step before.1 both.1 both.2 stepped⟩)
      ⟨.init store router, .init _ store router⟩ (sequential.and undisturbed) reached
  have order := all.2.order
  rw [State.line, List.append_assoc] at order
  exact (List.pairwise_append.1 order).1

/-- The frame of a message from ann to bob. -/
def toBob (n : UInt8) : Label :=
  .frame (ascii "ann") (SealedEnvelope.marshal ⟨ascii "bob", [n], 0, [], []⟩) Reference.start

/-- A message is queued; bob connects, the first flush fails and puts it back, the second delivers it; then ann sends
another one. -/
def patient : List Label :=
  [toBob 1, .lookup 0, .enqueue 0 .start, .register (ascii "bob") 7, .drain 0 Reference.start (.zeros 12),
    .flushWrite 0 true, .requeue 0 .start, .unregister 0, .register (ascii "bob") 8, .drain 0 Reference.start (.zeros 12),
    .flushWrite 0 false, toBob 2, .lookup 0, .write 0 false]

theorem written_in_order_patient :
    ∃ s, run (State.step Reference.platform) (State.init Reference.store (.new 65536 60 (ascii "a"))) patient = some s ∧
      s.sentIds (s.fromTo (ascii "ann") (ascii "bob")) = [0, 1] ∧
      (s.sentIds (s.fromTo (ascii "ann") (ascii "bob"))).Pairwise (· < ·) := by
  have found : ((run (State.step Reference.platform) (State.init Reference.store (.new 65536 60 (ascii "a"))) patient).map
      fun s => s.sentIds (s.fromTo (ascii "ann") (ascii "bob"))) = some [0, 1] := by decide +kernel
  obtain ⟨s, reached, both⟩ := Option.map_eq_some_iff.1 found
  exact ⟨s, reached, both, written_in_order Reference.platform Reference.store (.new 65536 60 (ascii "a")) (ascii "ann")
    (ascii "bob") patient s (by decide +kernel) (by decide +kernel) reached⟩

/-- A message is queued; bob connects, and ann's next message is written before the queue is flushed. -/
def hasty : List Label :=
  [toBob 1, .lookup 0, .enqueue 0 .start, .register (ascii "bob") 7, toBob 2, .lookup 0, .write 0 false,
    .drain 0 Reference.start (.zeros 12), .flushWrite 0 false]

theorem overtaken :
    ∃ s, run (State.step Reference.platform) (State.init Reference.store (.new 65536 60 (ascii "a"))) hasty = some s ∧
      Always (State.step Reference.platform) (State.Sequential (ascii "ann") (ascii "bob"))
        (State.init Reference.store (.new 65536 60 (ascii "a"))) hasty ∧
      s.sentIds (s.fromTo (ascii "ann") (ascii "bob")) = [1, 0] := by
  have found : ((run (State.step Reference.platform) (State.init Reference.store (.new 65536 60 (ascii "a"))) hasty).map
      fun s => s.sentIds (s.fromTo (ascii "ann") (ascii "bob"))) = some [1, 0] := by decide +kernel
  obtain ⟨s, reached, both⟩ := Option.map_eq_some_iff.1 found
  exact ⟨s, reached, by decide +kernel, both⟩

end SpectreRelay.Server.Delivery
