/-
`ConditionWatchLedger`: what was observed of a target, and the one notification that
it has become terminal.
-/
import Centinal26.Lib.Machine
import Centinal26.Lib.Table
import Centinal26.Lib.Program
import Centinal26.Py.Host

namespace Centinal26.Watch

open Py Steps

-- == tables

/-- `DELIVERY_STATES`. -/
inductive Status : Type
  | pending
  | delivering
  | delivered
  | failedTerminal
  | legacyUncertain
deriving DecidableEq

def Status.value : Status → String
  | pending => "PENDING"
  | delivering => "DELIVERING"
  | delivered => "DELIVERED"
  | failedTerminal => "FAILED_TERMINAL"
  | legacyUncertain => "LEGACY_UNCERTAIN"

variable {τ : Type}

/-- A row of `condition_watches`. -/
structure Target (τ : Type) where
  key : Text
  lastState : Text
  firstTerminal : Option Text
  notifiedAt : Option τ
  count : Int
  createdAt : τ
  updatedAt : τ
  enqueuedAt : Option τ
  deliveryState : Option Status

/-- A row of `condition_watch_history`. -/
structure Observation (τ : Type) where
  key : Text
  state : Text
  terminal : Bool
  notify : Bool
  observedAt : τ
  deliveryId : Option Text

/-- A row of `condition_watch_outbox`. -/
structure Delivery (τ : Type) where
  id : Text
  key : Text
  terminalState : Text
  status : Status
  attempts : Int
  leaseOwner : Option Text
  leaseUntil : Option τ
  lastError : Option Text
  createdAt : τ
  updatedAt : τ
  deliveredAt : Option τ

structure Db (τ : Type) where
  targets : Table (Target.key (τ := τ))
  history : List (Observation τ)
  outbox : Table (Delivery.id (τ := τ))

/-- A database of the first version: no outbox, and nothing in the later columns. -/
def Db.ofTargets (targets : Table (Target.key (τ := τ))) (history : List (Observation τ)) :
    Db τ := ⟨targets, history, .empty⟩

abbrev Update (τ α : Type) := Tx PyErr (Db τ) α

-- == texts

def strip (s : PyStr) : PyStr :=
  ((s.dropWhile isSpace).reverse.dropWhile isSpace).reverse

def clean (s : PyStr) (name : String) : Except PyErr PyStr :=
  if strip s = [] then .error (.valueError (name ++ " must not be empty")) else .ok (strip s)

theorem encodable_take {s : PyStr} (h : Encodable s) (n : Nat) : Encodable (s.take n) :=
  fun c hc => h c (List.mem_of_mem_take hc)

def deliveryId (H : Host) (key : Text) : Text :=
  ⟨py "cwd-" ++ (H.sha256 ⟨py "condition-watch:" ++ key.str,
      encodable_append.mpr ⟨encodable_py _, key.encodable⟩⟩).str.take 32,
    encodable_append.mpr ⟨encodable_py _, encodable_take (Text.encodable _) 32⟩⟩

/-- A value of a `NOT NULL` column. -/
def required (F : Floats τ) (t : τ) : Except PyErr τ :=
  match F.column t with
  | some t => .ok t
  | none => .error .integrityError

-- == rows

namespace Db

variable (db : Db τ)

/-- `UPDATE condition_watches .. WHERE target_key=?`. -/
def setTarget (key : Text) (f : Target τ → Target τ) (hf : ∀ t, (f t).key = t.key) : Db τ :=
  { db with targets := db.targets.modify key f hf }

/-- `UPDATE condition_watch_outbox .. WHERE delivery_id=?`. -/
def setDelivery (id : Text) (f : Delivery τ → Delivery τ) (hf : ∀ d, (f d).id = d.id) : Db τ :=
  { db with outbox := db.outbox.modify id f hf }

/-- `INSERT OR IGNORE INTO condition_watch_outbox`: both the identifier and the target are unique.
-/
def enqueue (d : Delivery τ) : Bool × Db τ :=
  if db.outbox.rows.any fun r => decide (r.key = d.key) then (false, db)
  else match db.outbox.insert? d with
    | none => (false, db)
    | some outbox => (true, { db with outbox := outbox })

end Db

def Delivery.fresh (H : Host) (key terminalState : Text) (status : Status) (time : τ) :
    Delivery τ :=
  ⟨deliveryId H key, key, terminalState, status, 0, none, none, none, time, time, none⟩

-- == open

/-- What `_migrate_v1` makes of a row. -/
def Target.migrated (t : Target τ) (enqueuedAt : τ) : Target τ :=
  { t with
    enqueuedAt := some enqueuedAt, notifiedAt := none
    deliveryState := some .legacyUncertain }

/-- The body of `_migrate_v1`'s loop. -/
def migrateRow (H : Host) (db : Db τ) (t : Target τ) : Db τ :=
  match t.firstTerminal, t.notifiedAt with
  | some state, some notifiedAt =>
    (db.enqueue (.fresh H t.key state .legacyUncertain notifiedAt)).2.setTarget t.key
      (fun r => r.migrated notifiedAt) fun _ => rfl
  | _, _ => db

/-- The rows `_migrate_v1` selects. -/
def Target.isLegacy (t : Target τ) : Bool := t.notifiedAt.isSome && t.enqueuedAt.isNone

/-- `_init`. -/
def migrate (H : Host) (db : Db τ) : Db τ :=
  (db.targets.rows.filter Target.isLegacy).foldl (migrateRow H) db

-- == observe

structure Decision where
  key : Text
  state : Text
  terminal : Bool
  notify : Bool
  firstTerminal : Option Text
  count : Int
  deliveryId : Option Text
  deliveryState : Option Status

section Operations

variable (H : Host) (F : Floats τ)

/-- The row of the target after an observation, before its notification. -/
def Db.observed (db : Db τ) (key state : Text) (terminal : Bool) (now : τ) : Target τ :=
  match db.targets.find? key with
  | none => ⟨key, state, if terminal then some state else none, none, 1, now, now, none, none⟩
  | some t => { t with lastState := state, count := t.count + 1, updatedAt := now }

def Db.put (db : Db τ) (t : Target τ) : Db τ := { db with targets := db.targets.upsert t }

/-- `INSERT INTO condition_watch_history`. -/
def Db.remember (db : Db τ) (o : Observation τ) : Db τ :=
  { db with history := db.history ++ [o] }

/-- A terminal observation: the notification, and what the target holds of it. -/
def enqueueTerminal (t : Target τ) (state : Text) (now : τ) (db : Db τ) :
    Except PyErr (Decision × Db τ) :=
  let first := t.firstTerminal.getD state
  let out := db.enqueue (.fresh H t.key first .pending now)
  match out.2.outbox.find? (deliveryId H t.key) with
  | none => .error .typeError
  | some d =>
    .ok (⟨t.key, state, true, out.1, some first, t.count, some d.id, some d.status⟩,
      out.2.put { t with
        firstTerminal := some first
        enqueuedAt := some (t.enqueuedAt.getD d.createdAt)
        deliveryState := some d.status })

def observe (key state : PyStr) (terminals : List PyStr) (now : τ) : Update τ Decision :=
  fun db => do
    let key ← clean key "target_key"
    let state ← clean state "observed_state"
    let terminals ← terminals.mapM fun x => clean x "terminal_state"
    if terminals = [] then .error (.valueError "terminal_states must not be empty")
    else do
      let key ← encode key
      let state ← encode state
      let now ← required F now
      let t := db.observed key state (decide (state.str ∈ terminals)) now
      if state.str ∈ terminals then do
        let out ← enqueueTerminal H t state now (db.put t)
        .ok (out.1, out.2.remember ⟨key, state, true, out.1.notify, now, out.1.deliveryId⟩)
      else
        .ok (⟨key, state, false, false, t.firstTerminal, t.count, none, none⟩,
          (db.put t).remember ⟨key, state, false, false, now, none⟩)

-- == delivery

structure Claim (τ : Type) where
  deliveryId : Text
  key : Text
  terminalState : Text
  attempt : Int
  owner : Text
  leaseUntil : τ

/-- `status='PENDING' OR (status='DELIVERING' AND lease_until IS NOT NULL AND
lease_until<=?)`. -/
def Delivery.isClaimable (now : τ) (d : Delivery τ) : Bool :=
  decide (d.status = .pending)
    || (decide (d.status = .delivering) && d.leaseUntil.any fun t => F.le t now)

/-- `ORDER BY created_at,delivery_id`. -/
def Delivery.before (a b : Delivery τ) : Bool :=
  F.lt a.createdAt b.createdAt || (!F.lt b.createdAt a.createdAt && decide (a.id.str ≤ b.id.str))

def Delivery.claimed (d : Delivery τ) (owner : Text) (leaseUntil : Option τ) (now : τ) :
    Delivery τ :=
  { d with
    status := .delivering, attempts := d.attempts + 1, leaseOwner := some owner
    leaseUntil := leaseUntil, updatedAt := now, lastError := none }

/-- A target whose notification has come to a status. -/
def Target.mirroring (t : Target τ) (status : Status) (now : τ) : Target τ :=
  { t with deliveryState := some status, updatedAt := now }

def cleanKey : Option PyStr → Except PyErr (Option PyStr)
  | none => .ok none
  | some key => do .ok (some (← clean key "target_key"))

def keyText : Option PyStr → Except PyErr (Option Text)
  | none => .ok none
  | some key => do .ok (some (← encode key))

def claimDelivery (worker : PyStr) (lease now : τ) (key : Option PyStr) :
    Update τ (Option (Claim τ)) := fun db => do
  let worker ← clean worker "worker_id"
  if F.le lease F.zero then .error (.valueError "lease_seconds must be positive")
  else do
    let key ← keyText (← cleanKey key)
    match db.outbox.minBy? (fun d => d.isClaimable F now && key.all fun k => decide (d.key = k))
        (Delivery.before F) with
    | none => .ok (none, db)
    | some d =>
      let owner ← encode worker
      let time ← required F now
      .ok (some ⟨d.id, d.key, d.terminalState, d.attempts + 1, owner, F.add now lease⟩,
        (db.setDelivery d.id
            (fun r => r.claimed owner (F.column (F.add now lease)) time) fun _ => rfl).setTarget
          d.key (fun t => t.mirroring .delivering time) fun _ => rfl)

def validateAttempt (n : Int) : Except PyErr Unit :=
  if 0 < n then .ok () else .error (.valueError "attempt_count must be a positive integer")

def requireLease (d : Delivery τ) (worker : PyStr) (attempt : Int) : Except PyErr Unit :=
  if d.status ≠ .delivering then .error (.valueError "delivery is not leased")
  else if d.leaseOwner.map Text.str ≠ some worker then
    .error (.permissionError "delivery is leased by another worker")
  else if d.attempts ≠ attempt then
    .error (.permissionError "delivery is leased under another attempt")
  else .ok ()

/-- What `acknowledge_delivery` makes of a row. -/
def Delivery.acknowledged (d : Delivery τ) (now : τ) : Delivery τ :=
  { d with
    status := .delivered, leaseOwner := none, leaseUntil := none, deliveredAt := some now
    updatedAt := now, lastError := none }

/-- A target whose notification has been delivered. -/
def Target.notified (t : Target τ) (now : τ) : Target τ :=
  { t with notifiedAt := some now, deliveryState := some .delivered, updatedAt := now }

def acknowledge (id worker : PyStr) (attempt : Int) (now : τ) : Update τ Bool := fun db => do
  let id ← clean id "delivery_id"
  let worker ← clean worker "worker_id"
  validateAttempt attempt
  match db.outbox.find? (← encode id) with
  | none => .error (.keyError id)
  | some d =>
    if d.status = .delivered then .ok (false, db)
    else do
      requireLease d worker attempt
      let now ← required F now
      .ok (true, (db.setDelivery d.id (fun r => r.acknowledged now) fun _ => rfl).setTarget
        d.key (fun t => t.notified now) fun _ => rfl)

def Delivery.failed (d : Delivery τ) (status : Status) (error : Text) (now : τ) : Delivery τ :=
  { d with
    status := status, leaseOwner := none, leaseUntil := none, lastError := some error
    updatedAt := now }

def failStatus (retryable : Bool) : Status := if retryable then .pending else .failedTerminal

def fail (id worker error : PyStr) (attempt : Int) (retryable : Bool) (now : τ) :
    Update τ Bool := fun db => do
  let id ← clean id "delivery_id"
  let worker ← clean worker "worker_id"
  validateAttempt attempt
  let message ← clean error "error"
  match db.outbox.find? (← encode id) with
  | none => .error (.keyError id)
  | some d =>
    if d.status = .delivered then .ok (false, db)
    else do
      requireLease d worker attempt
      let message ← encode (message.take 4000)
      let now ← required F now
      .ok (true, (db.setDelivery d.id
          (fun r => r.failed (failStatus retryable) message now) fun _ => rfl).setTarget
        d.key (fun t => t.mirroring (failStatus retryable) now) fun _ => rfl)

/-- What `resolve_legacy` makes of a row. -/
def Delivery.resolved (d : Delivery τ) (status : Status) (deliveredAt : Option τ) (now : τ) :
    Delivery τ :=
  { d with status := status, deliveredAt := deliveredAt, updatedAt := now }

def Target.resolved (t : Target τ) (status : Status) (deliveredAt : Option τ) (now : τ) :
    Target τ :=
  { t with notifiedAt := deliveredAt, deliveryState := some status, updatedAt := now }

/-- The status of a legacy delivery, once somebody has looked. -/
def legacyStatus (delivered : Bool) : Status := if delivered then .delivered else .pending

def resolveLegacy (id : PyStr) (delivered : Bool) (now : τ) : Update τ Unit := fun db => do
  let id ← clean id "delivery_id"
  match db.outbox.find? (← encode id) with
  | none => .error (.keyError id)
  | some d =>
    if d.status ≠ .legacyUncertain then
      .error (.valueError "delivery is not legacy-uncertain")
    else do
      let now ← required F now
      .ok ((), (db.setDelivery d.id (fun r => r.resolved (legacyStatus delivered)
          (if delivered then some now else none) now) fun _ => rfl).setTarget d.key
        (fun t => t.resolved (legacyStatus delivered)
          (if delivered then some now else none) now) fun _ => rfl)

end Operations

-- == operations

inductive Op (τ : Type) : Type
  | openLedger
  | observe (key state : PyStr) (terminals : List PyStr) (now : τ)
  | claim (worker : PyStr) (lease now : τ) (key : Option PyStr)
  | acknowledge (id worker : PyStr) (attempt : Int) (now : τ)
  | fail (id worker error : PyStr) (attempt : Int) (retryable : Bool) (now : τ)
  | resolve (id : PyStr) (delivered : Bool) (now : τ)

inductive Reply (τ : Type) : Type
  | unit
  | observed (d : Decision)
  | claimed (c : Option (Claim τ))
  | done (b : Bool)

def Op.tx (H : Host) (F : Floats τ) : Op τ → Update τ (Reply τ)
  | .openLedger => fun db => .ok (.unit, migrate H db)
  | .observe key state terminals now => fun db => do
    let out ← Watch.observe H F key state terminals now db
    .ok (.observed out.1, out.2)
  | .claim worker lease now key => fun db => do
    let out ← claimDelivery F worker lease now key db
    .ok (.claimed out.1, out.2)
  | .acknowledge id worker attempt now => fun db => do
    let out ← Watch.acknowledge F id worker attempt now db
    .ok (.done out.1, out.2)
  | .fail id worker error attempt retryable now => fun db => do
    let out ← Watch.fail F id worker error attempt retryable now db
    .ok (.done out.1, out.2)
  | .resolve id delivered now => fun db => do
    let out ← resolveLegacy F id delivered now db
    .ok (.unit, out.2)

def perform (H : Host) (F : Floats τ) (op : Op τ) : Block PyErr (Db τ) (Reply τ) :=
  (op.tx H F).commit

abbrev Step (τ : Type) := Machine.Entry (Op τ) (Except PyErr (Reply τ)) (Db τ)

end Centinal26.Watch
