import SpectreRelay.Lib.Bag
import SpectreRelay.Lib.Runs
import SpectreRelay.Server.Reference
import SpectreRelay.Server.Server

/-!
# Delivery, step by step

The critical sections of `deliver`, `FlushQueue` and `serveConn` as steps of
one machine, interleaved in any order: any number of unfinished `deliver` calls
and any number of sessions over one store. A write succeeds, or fails having
delivered nothing. No storage call fails here and the process does not crash.

Some fields of the state are history that the relay does not keep: which
`deliver` call a row came from, what was written and discarded, and who has
registered. No step depends on them.
-/

namespace SpectreRelay.Server.Delivery
set_option autoImplicit false
open Lib Model

/-- How a message came to the relay. -/
inductive Origin where
  | client (senderID : Bytes)
  | federation (header : Bytes)
deriving DecidableEq

/-- A `deliver` call for a local user: its recipient's key, the message and where it came from. -/
structure Handed where
  recipientID : Bytes
  msg : QueuedMessage
  origin : Origin

/-- What an unfinished `deliver` call does next. -/
inductive Stage where
  | lookup
  | write (conn : Conn)
  | enqueue
deriving DecidableEq

/-- An unfinished `deliver` call, by its number. -/
structure Call where
  id : Nat
  recipientID : Bytes
  msg : QueuedMessage
  stage : Stage

/-- Where a session is: before its drain, in its flush, putting back what a failed flush left, or in its read loop. -/
inductive Phase where
  | registered
  | flushing (pending : List (Nat × QueuedMessage))
  | requeueing (pending : List (Nat × QueuedMessage))
  | serving
deriving DecidableEq

/-- The drained messages that are not yet written or put back, with their numbers. -/
def Phase.pending : Phase → List (Nat × QueuedMessage)
  | registered => []
  | flushing pending => pending
  | requeueing pending => pending
  | serving => []

/-- The phase of a flush with these messages left. -/
def Phase.flush : List (Nat × QueuedMessage) → Phase
  | [] => serving
  | next :: left => flushing (next :: left)

/-- The phase of a failed flush with these messages left to put back. -/
def Phase.requeue : List (Nat × QueuedMessage) → Phase
  | [] => serving
  | next :: left => requeueing (next :: left)

@[simp] theorem Phase.pending_registered : registered.pending = [] := rfl

@[simp] theorem Phase.pending_flushing (pending : List (Nat × QueuedMessage)) : (flushing pending).pending = pending := rfl

@[simp] theorem Phase.pending_requeueing (pending : List (Nat × QueuedMessage)) :
    (requeueing pending).pending = pending := rfl

@[simp] theorem Phase.pending_serving : serving.pending = [] := rfl

@[simp] theorem Phase.pending_flush (pending : List (Nat × QueuedMessage)) : (flush pending).pending = pending := by
  cases pending <;> rfl

@[simp] theorem Phase.pending_requeue (pending : List (Nat × QueuedMessage)) : (requeue pending).pending = pending := by
  cases pending <;> rfl

structure Session where
  conn : Conn
  userID : Bytes
  phase : Phase

/-- Why a message was discarded. -/
inductive Discard where
  /-- An `Enqueue` found this many rows. -/
  | full (rows : Nat)
  /-- A row that expired at `expiresAt` was removed at `now`. -/
  | expired (expiresAt : Int64) (now : Time)

/-- A frame that a connection received. -/
structure Written where
  id : Nat
  conn : Conn
  frame : Bytes

structure State where
  store : Store
  router : Router
  calls : List Call
  sessions : List Session
  /-- The requests to other relays. -/
  posts : List (Bytes × SealedEnvelope)
  /-- Every `deliver` call so far for a local user; a call's number is its position. -/
  handed : List Handed
  /-- The call that the row with this number came from. -/
  owner : Nat → Nat
  written : List Written
  discarded : List (Nat × Discard)
  /-- Every `Register` so far. -/
  registered : List (Bytes × Conn)

/-- The readings and nonces of an `Enqueue`. -/
structure Stamp where
  deleteAt : Time
  now : Time
  nonce : Block 12
  fileNonce : Block 12

/-- An `Enqueue` in the first second. -/
def Stamp.start : Stamp := ⟨Reference.start, Reference.start, .zeros 12, .zeros 12⟩

def Stamp.io (t : Stamp) : Store.EnqueueIo := .clean t.deleteAt t.now t.nonce t.fileNonce

/-- The steps. A call or session is named by its position. -/
inductive Label where
  | frame (senderID data : Bytes) (now : Time)
  | post (header body : Bytes)
  | lookup (i : Nat)
  | write (i : Nat) (fails : Bool)
  | enqueue (i : Nat) (t : Stamp)
  | register (userID : Bytes) (conn : Conn)
  | drain (j : Nat) (now : Time) (fileNonce : Block 12)
  | flushWrite (j : Nat) (fails : Bool)
  | requeue (j : Nat) (t : Stamp)
  | unregister (j : Nat)
  | purge (now : Time) (fileNonce : Block 12)

namespace State

variable (P : Platform)

/-- The start of a `deliver` call. -/
def hand (s : State) (call : Option (Bytes × QueuedMessage)) (origin : Origin) : State :=
  match call with
  | none => s
  | some (recipientID, m) =>
    match target s.router.relayID recipientID m with
    | .drop => s
    | .forward domain sealed => { s with posts := s.posts ++ [(domain, sealed)] }
    | .local name =>
      { s with
        calls := ⟨s.handed.length, name, m, .lookup⟩ :: s.calls
        handed := s.handed ++ [⟨name, m, origin⟩] }

/-- The rows that meet `p`, as discarded at `now` for having expired. -/
def expiries (s : State) (p : QueueRow → Bool) (now : Time) : List (Nat × Discard) :=
  (s.store.table.select p).map fun row => (s.owner row.1, .expired row.2.expiresAt now)

/-- One `Enqueue` of the message with number `id`. -/
def enqueue (s : State) (id : Nat) (r : Bytes) (m : QueuedMessage) (t : Stamp) : State :=
  let dead := s.expiries (fun row => row.recipientID = r ∧ Store.expired t.deleteAt row) t.deleteAt
  let rows := (Store.purgeOf s.store.table r t.deleteAt).count fun row => row.recipientID = r
  { s with
    store := s.store.enqueue P r m t.io
    owner := if Store.Full s.store.table r t.deleteAt then s.owner else Function.update s.owner s.store.table.next id
    discarded := s.discarded ++ dead ++ if Store.Full s.store.table r t.deleteAt then [(id, .full rows)] else [] }

/-- One step, or none when it cannot be taken. -/
def step (s : State) : Label → Option State
  | .frame senderID data now =>
    match frameKind data with
    | .route =>
      let routed := s.router.route senderID data now
      some (hand { s with router := routed.1 } routed.2 (.client senderID))
    | _ => some s
  | .post header body => some (s.hand (federationDeliver s.router.relayID header body) (.federation header))
  | .lookup i =>
    match pick s.calls i with
    | some (⟨id, r, m, .lookup⟩, rest) =>
      let next := match s.store.lookupClient r with
        | some conn => Stage.write conn
        | none => .enqueue
      some { s with calls := ⟨id, r, m, next⟩ :: rest }
    | _ => none
  | .write i fails =>
    match pick s.calls i with
    | some (⟨id, r, m, .write conn⟩, rest) =>
      match marshalQueued m, fails with
      | some frame, false => some { s with calls := rest, written := s.written ++ [⟨id, conn, frame⟩] }
      | _, _ => some { s with calls := ⟨id, r, m, .enqueue⟩ :: rest }
    | _ => none
  | .enqueue i t =>
    match pick s.calls i with
    | some (⟨id, r, m, .enqueue⟩, rest) => some (enqueue P { s with calls := rest } id r m t)
    | _ => none
  | .register userID conn =>
    if s.registered.any fun past => past.2 = conn then none
    else
      some { s with
        store := (s.store.register userID conn).1
        sessions := ⟨conn, userID, .registered⟩ :: s.sessions
        registered := s.registered ++ [(userID, conn)] }
  | .drain j now fileNonce =>
    match pick s.sessions j with
    | some (⟨conn, userID, .registered⟩, rest) =>
      let io := Store.DrainIo.clean now fileNonce
      let pending := (s.store.drainedRows P userID io).map fun row => (s.owner row.1, row.2)
      let dead := s.expiries (fun row => row.recipientID = userID ∧ Store.expired now row) now
      some { s with
        store := (s.store.drainQueue P userID io).1
        sessions := ⟨conn, userID, .flush pending⟩ :: rest
        discarded := s.discarded ++ dead }
    | _ => none
  | .flushWrite j fails =>
    match pick s.sessions j with
    | some (⟨conn, userID, .flushing ((id, m) :: left)⟩, rest) =>
      match marshalQueued m, fails with
      -- nothing to write: the loop goes on
      | none, _ => some { s with sessions := ⟨conn, userID, .flush left⟩ :: rest }
      | some frame, false =>
        some { s with
          sessions := ⟨conn, userID, .flush left⟩ :: rest
          written := s.written ++ [⟨id, conn, frame⟩] }
      | some _, true => some { s with sessions := ⟨conn, userID, .requeueing ((id, m) :: left)⟩ :: rest }
    | _ => none
  | .requeue j t =>
    match pick s.sessions j with
    | some (⟨conn, userID, .requeueing ((id, m) :: left)⟩, rest) =>
      some (enqueue P { s with sessions := ⟨conn, userID, .requeue left⟩ :: rest } id userID m t)
    | _ => none
  | .unregister j =>
    match pick s.sessions j with
    | some (⟨conn, userID, .serving⟩, rest) =>
      some { s with store := s.store.unregister userID conn, sessions := rest }
    | _ => none
  | .purge now fileNonce =>
    some { s with
      store := s.store.purgeExpired P now false (.clean fileNonce)
      discarded := s.discarded ++ s.expiries (Store.expired now) now }

/-- A relay that was just started: an empty queue and nobody connected. -/
def init (store : Store) (router : Router) : State where
  store := { store with clients := ∅, table := .empty }
  router
  calls := []
  sessions := []
  posts := []
  handed := []
  owner := fun _ => 0
  written := []
  discarded := []
  registered := []

/-! ## What a step can do -/

/-- The steps by their effects. -/
inductive Step (s : State) : Label → State → Prop where
  | frame {senderID data : Bytes} {now : Time} {router : Router} {call : Option (Bytes × QueuedMessage)}
      (kind : frameKind data = .route) (route : s.router.route senderID data now = (router, call)) :
      Step s (.frame senderID data now) (hand { s with router } call (.client senderID))
  | control {senderID data : Bytes} {now : Time} : Step s (.frame senderID data now) s
  | post {header body : Bytes} :
      Step s (.post header body) (s.hand (federationDeliver s.router.relayID header body) (.federation header))
  | online {i id : Nat} {r : Bytes} {m : QueuedMessage} {rest : List Call} {conn : Conn}
      (picked : pick s.calls i = some (⟨id, r, m, .lookup⟩, rest)) (found : s.store.lookupClient r = some conn) :
      Step s (.lookup i) { s with calls := ⟨id, r, m, .write conn⟩ :: rest }
  | offline {i id : Nat} {r : Bytes} {m : QueuedMessage} {rest : List Call}
      (picked : pick s.calls i = some (⟨id, r, m, .lookup⟩, rest)) (missing : s.store.lookupClient r = none) :
      Step s (.lookup i) { s with calls := ⟨id, r, m, .enqueue⟩ :: rest }
  | wrote {i id : Nat} {r frame : Bytes} {m : QueuedMessage} {rest : List Call} {conn : Conn}
      (picked : pick s.calls i = some (⟨id, r, m, .write conn⟩, rest)) (text : marshalQueued m = some frame) :
      Step s (.write i false) { s with calls := rest, written := s.written ++ [⟨id, conn, frame⟩] }
  | writeFailed {i id : Nat} {r : Bytes} {m : QueuedMessage} {rest : List Call} {conn : Conn} {fails : Bool}
      (picked : pick s.calls i = some (⟨id, r, m, .write conn⟩, rest))
      (reason : fails = true ∨ marshalQueued m = none) :
      Step s (.write i fails) { s with calls := ⟨id, r, m, .enqueue⟩ :: rest }
  | enqueue {i id : Nat} {r : Bytes} {m : QueuedMessage} {rest : List Call} {t : Stamp}
      (picked : pick s.calls i = some (⟨id, r, m, .enqueue⟩, rest)) :
      Step s (.enqueue i t) (State.enqueue P { s with calls := rest } id r m t)
  | register {userID : Bytes} {conn : Conn} (fresh : ∀ past ∈ s.registered, past.2 ≠ conn) :
      Step s (.register userID conn) { s with
        store := (s.store.register userID conn).1
        sessions := ⟨conn, userID, .registered⟩ :: s.sessions
        registered := s.registered ++ [(userID, conn)] }
  | drain {j : Nat} {now : Time} {fileNonce : Block 12} {conn : Conn} {userID : Bytes} {rest : List Session}
      (picked : pick s.sessions j = some (⟨conn, userID, .registered⟩, rest)) :
      Step s (.drain j now fileNonce) { s with
        store := (s.store.drainQueue P userID (.clean now fileNonce)).1
        sessions := ⟨conn, userID, .flush ((s.store.drainedRows P userID (.clean now fileNonce)).map
          fun row => (s.owner row.1, row.2))⟩ :: rest
        discarded := s.discarded ++
          s.expiries (fun row => row.recipientID = userID ∧ Store.expired now row) now }
  | skipped {j id : Nat} {conn : Conn} {userID : Bytes} {m : QueuedMessage} {left : List (Nat × QueuedMessage)}
      {rest : List Session} {fails : Bool}
      (picked : pick s.sessions j = some (⟨conn, userID, .flushing ((id, m) :: left)⟩, rest))
      (text : marshalQueued m = none) :
      Step s (.flushWrite j fails) { s with sessions := ⟨conn, userID, .flush left⟩ :: rest }
  | flushed {j id : Nat} {conn : Conn} {userID frame : Bytes} {m : QueuedMessage} {left : List (Nat × QueuedMessage)}
      {rest : List Session}
      (picked : pick s.sessions j = some (⟨conn, userID, .flushing ((id, m) :: left)⟩, rest))
      (text : marshalQueued m = some frame) :
      Step s (.flushWrite j false) { s with
        sessions := ⟨conn, userID, .flush left⟩ :: rest
        written := s.written ++ [⟨id, conn, frame⟩] }
  | flushFailed {j id : Nat} {conn : Conn} {userID : Bytes} {m : QueuedMessage} {left : List (Nat × QueuedMessage)}
      {rest : List Session}
      (picked : pick s.sessions j = some (⟨conn, userID, .flushing ((id, m) :: left)⟩, rest)) :
      Step s (.flushWrite j true) { s with sessions := ⟨conn, userID, .requeueing ((id, m) :: left)⟩ :: rest }
  | requeue {j id : Nat} {conn : Conn} {userID : Bytes} {m : QueuedMessage} {left : List (Nat × QueuedMessage)}
      {rest : List Session} {t : Stamp}
      (picked : pick s.sessions j = some (⟨conn, userID, .requeueing ((id, m) :: left)⟩, rest)) :
      Step s (.requeue j t)
        (State.enqueue P { s with sessions := ⟨conn, userID, .requeue left⟩ :: rest } id userID m t)
  | unregister {j : Nat} {conn : Conn} {userID : Bytes} {rest : List Session}
      (picked : pick s.sessions j = some (⟨conn, userID, .serving⟩, rest)) :
      Step s (.unregister j) { s with store := s.store.unregister userID conn, sessions := rest }
  | purge {now : Time} {fileNonce : Block 12} :
      Step s (.purge now fileNonce) { s with
        store := s.store.purgeExpired P now false (.clean fileNonce)
        discarded := s.discarded ++ s.expiries (Store.expired now) now }

variable {P}

/-- A `deliver` call leaves the local state alone, or starts a call for a local user. -/
theorem hand_cases (s : State) (call : Option (Bytes × QueuedMessage)) (origin : Origin) :
    (∃ posts, s.hand call origin = { s with posts }) ∨
      ∃ r m name, call = some (r, m) ∧ target s.router.relayID r m = .local name ∧
        s.hand call origin = { s with
          calls := ⟨s.handed.length, name, m, .lookup⟩ :: s.calls
          handed := s.handed ++ [⟨name, m, origin⟩] } := by
  unfold hand
  split
  · exact .inl ⟨s.posts, rfl⟩
  · rename_i r m
    split
    · exact .inl ⟨s.posts, rfl⟩
    · exact .inl ⟨_, rfl⟩
    · rename_i name found
      exact .inr ⟨r, m, name, rfl, found, rfl⟩

/-- Every step is one of these. -/
theorem step_cases {s s' : State} {l : Label} (h : step P s l = some s') : Step P s l s' := by
  cases l with
  | frame senderID data now =>
    simp only [step] at h
    split at h
    · rename_i kind; cases h; exact .frame kind rfl
    · cases h; exact .control
  | post header body => cases h; exact .post
  | lookup i =>
    simp only [step] at h
    split at h
    · rename_i picked
      cases h
      split
      · rename_i found; exact .online picked found
      · rename_i missing; exact .offline picked missing
    · cases h
  | write i fails =>
    simp only [step] at h
    split at h
    · rename_i id r m conn rest picked
      cases text : marshalQueued m with
      | none =>
        simp only [text] at h
        cases h
        exact .writeFailed picked (.inr text)
      | some frame =>
        simp only [text] at h
        cases fails with
        | false => cases h; exact .wrote picked text
        | true => cases h; exact .writeFailed picked (.inl rfl)
    · cases h
  | enqueue i t =>
    simp only [step] at h
    split at h
    · rename_i picked; cases h; exact .enqueue picked
    · cases h
  | register userID conn =>
    simp only [step] at h
    split at h
    · cases h
    · rename_i fresh
      cases h
      refine .register fun past inside same => fresh (List.any_eq_true.2 ⟨past, inside, ?_⟩)
      exact decide_eq_true same
  | drain j now fileNonce =>
    simp only [step] at h
    split at h
    · rename_i picked; cases h; exact .drain picked
    · cases h
  | flushWrite j fails =>
    simp only [step] at h
    split at h
    · rename_i picked
      split at h
      · rename_i text; cases h; exact .skipped picked text
      · rename_i text; cases h; exact .flushed picked text
      · cases h; exact .flushFailed picked
    · cases h
  | requeue j t =>
    simp only [step] at h
    split at h
    · rename_i picked; cases h; exact .requeue picked
    · cases h
  | unregister j =>
    simp only [step] at h
    split at h
    · rename_i picked; cases h; exact .unregister picked
    · cases h
  | purge now fileNonce => cases h; exact .purge

end State

end SpectreRelay.Server.Delivery
