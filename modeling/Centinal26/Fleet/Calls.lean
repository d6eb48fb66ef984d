/-
The operations of one controller, run one after the other.
-/
import Centinal26.Fleet.Steps

namespace Centinal26.Fleet

open Py Steps

variable {F : FleetHost}

/-- A call gets as far as a block, with what it has read. -/
inductive Asks (F : FleetHost) (db : Db) : Call → Write → Prop
  | create {a : ContractArgs} {role : Role} {onVerified : Option Role}
      {score : FloatLit} {contractHash : Text}
      (hchecked : checkContract a = .ok (role, onVerified)) :
      Asks F db (.create a) (.create a role onVerified score contractHash)
  | claim {name claimer : PyStr} {leaseSeconds batchLimit : Int} {now : Instant}
      {role : Role} (hrole : Role.ofName? name = some role) :
      Asks F db (.claim name claimer leaseSeconds batchLimit now)
        (.claim ⟨role, claimer, leaseSeconds, batchLimit, now, candidates db role now⟩)
  | result {c : ResultCall} {id : Text} {role : Role} {contract : ContractRow}
      {s : StateRow} {resultHash : Text} (hid : id.str = c.contractId)
      (hrole : Role.ofName? c.role = some role)
      (hs : db.joined? id = some (contract, s))
      (howner : s.ownerRole = role ∨ role = .judge) :
      Asks F db (.result c)
        (.result ⟨id, role, c.status, c.payload, c.evidenceHash, c.now⟩ resultHash)
  | verdict {c : VerdictCall} {id : Text} {verdict : Verdict} {r : ResultRow}
      {contract : ContractRow} {verdictHash : Text}
      (hverdict : Verdict.ofName? c.verdict = some verdict)
      (hr : db.judged? id = some (r, contract)) :
      Asks F db (.verdict c) (.verdict ⟨id, verdict, c.verifier, c.details,
        c.evidenceHash, c.now, r.contractId, contract.assignedRole,
        contract.onVerifiedRole⟩ verdictHash)

def Reply.isIdle : Reply → Bool
  | .existing _ | .ruled _ => true
  | _ => false

inductive Ran (F : FleetHost) (c : Call) (db : Db) : Except PyErr Reply → Db → Prop
  | wrote {w : Write} {reply : Reply} {db' : Db} (hasks : Asks F db c w)
      (h : Wrote F.toHost w db reply db') : Ran F c db (.ok reply) db'
  | noted {a : ErrorArgs} {digest : Text} {reply : Reply} {db' : Db}
      {r : Except PyErr Reply} (hc : c = .error a)
      (h : Wrote F.toHost (.error a digest) db reply db') : Ran F c db r db'
  | idle {r : Except PyErr Reply} (hr : ∀ reply, r = .ok reply → reply.isIdle = true) :
      Ran F c db r db

abbrev Goes (F : FleetHost) (c : Call) (db : Db) (p : FProg Reply) : Prop :=
  p.Ends db (fun reply db' => Ran F c db (.ok reply) db') fun e db' => Ran F c db (.error e) db'

variable {c : Call} {db : Db} {α : Type} {f : α → FProg Reply}

theorem Ran.raised (e : PyErr) : Ran F c db (.error e) db :=
  .idle fun _ h => by cases h

theorem Goes.raise (e : PyErr) : Goes F c db (throw e) :=
  Prog.Ends.raise (Ran.raised e)

theorem Goes.ofExcept {r : Except PyErr α} (hf : ∀ a, r = .ok a → Goes F c db (f a)) :
    Goes F c db (Prog.ofExcept r >>= f) := by
  cases r with
  | ok a => exact hf a rfl
  | error e => exact Prog.Ends.raise (Ran.raised e)

theorem Goes.read {l : Access}
    {g : Db → Except PyErr α} (hf : ∀ a, g db = .ok a → Goes F c db (f a)) :
    Goes F c db (Fleet.read l g >>= f) := by
  refine Prog.Ends.bind (Q := fun a s => g db = .ok a ∧ s = db)
    (.block (m := fun db => (g db, db)) ⟨?_⟩) ?_
  · cases hg : g db with
    | ok a => exact ⟨rfl, rfl⟩
    | error e => exact Ran.raised e
  · rintro a _ ⟨hg, rfl⟩
    exact hf a hg

theorem Goes.write {w : Write} (hasks : Asks F db c w) : Goes F c db (Fleet.write F.toHost w) := by
  refine .block ⟨?_⟩
  rcases transaction_cases (H := F.toHost) w db with
    ⟨reply, db', hrun, -, hwrote⟩ | ⟨e, hrun, -⟩
  · rw [hrun]
    exact .wrote hasks hwrote
  · rw [hrun]
    exact Ran.raised e

theorem createContract_goes (a : ContractArgs) (db : Db) :
    Goes F (.create a) db (createContract F a) := by
  refine Goes.ofExcept fun ⟨role, onVerified⟩ hchecked => ?_
  refine Goes.ofExcept fun key _ => ?_
  refine Goes.read fun existing _ => ?_
  cases existing with
  | some row => exact .ret (.idle fun _ h => by cases h; rfl)
  | none =>
    refine Goes.ofExcept fun score _ => ?_
    refine Goes.ofExcept fun contractHash _ => ?_
    exact Goes.write (.create hchecked)

theorem claimNext_goes (name claimer : PyStr) (leaseSeconds batchLimit : Int)
    (now : Instant) (db : Db) : Goes F (.claim name claimer leaseSeconds batchLimit now) db
      (claimNext F.toHost name claimer leaseSeconds batchLimit now) := by
  unfold claimNext
  split
  · exact Goes.raise _
  · next role hrole =>
    split
    · exact Goes.raise _
    · refine Goes.read fun rows hrows => ?_
      cases hrows
      exact Goes.write (.claim hrole)

theorem recordResult_goes (c : ResultCall) (db : Db) :
    Goes F (.result c) db (recordResult F.toHost c) := by
  unfold recordResult
  split
  · exact Goes.raise _
  · next role hrole =>
    refine Goes.ofExcept fun id hid => ?_
    refine Goes.read fun state hstate => ?_
    split
    · exact Goes.raise _
    · next contract s =>
      split
      · exact Goes.raise _
      · next howner =>
        refine Goes.ofExcept fun resultHash _ => ?_
        exact Goes.write (.result (encode_eq_ok.mp hid) hrole (Except.ok.inj hstate) (by tauto))

theorem recordVerdict_goes (c : VerdictCall) (db : Db) :
    Goes F (.verdict c) db (recordVerdict F.toHost c) := by
  unfold recordVerdict
  split
  · exact Goes.raise _
  · next verdict hverdict =>
    refine Goes.ofExcept fun id _ => ?_
    refine Goes.read fun row hrow => ?_
    split
    · exact Goes.raise _
    · next r contract =>
      refine Goes.read fun existing _ => ?_
      cases existing with
      | some v => exact .ret (.idle fun _ h => by cases h; rfl)
      | none =>
        refine Goes.ofExcept fun verdictHash _ => ?_
        exact Goes.write (.verdict hverdict (Except.ok.inj hrow))

theorem recordErrorEvent_goes (a : ErrorArgs) (db : Db) :
    Goes F (.error a) db (recordErrorEvent F.toHost a) := by
  refine Goes.ofExcept fun digest _ => ?_
  refine Prog.Ends.bind (Q := fun _ s =>
    ∃ reply, Wrote F.toHost (.error a digest) db reply s) (.block ⟨?_⟩) ?_
  · rcases transaction_cases (H := F.toHost) (.error a digest) db with
      ⟨reply, db', hrun, -, hwrote⟩ | ⟨e, hrun, -⟩
    · rw [hrun]
      exact ⟨reply, hwrote⟩
    · rw [hrun]
      exact Ran.raised e
  · rintro - mid ⟨reply, hwrote⟩
    have hnoted : ∀ r, Ran F (.error a) db r mid := fun r => .noted rfl hwrote
    cases encode a.subsystem with
    | error e => exact Prog.Ends.raise (hnoted _)
    | ok subsystem =>
      show Prog.Ends (Fleet.read (.budget a.now)
        (fun db => contracted db subsystem a.now) >>= _) mid _ _
      refine Prog.Ends.bind (Q := fun _ s => s = mid)
        (.block (m := fun db => (contracted db subsystem a.now, db)) ⟨?_⟩) ?_
      · cases contracted mid subsystem a.now with
        | ok shut => exact rfl
        | error e => exact hnoted _
      · rintro shut _ rfl
        exact .ret (hnoted _)

theorem call_ran (F : FleetHost) (c : Call) (db : Db) :
    Ran F c db (call F c db).1 (call F c db).2 := by
  have hgoes : Goes F c db (start F c) := by
    cases c with
    | create a => exact createContract_goes a db
    | claim name claimer leaseSeconds batchLimit now =>
      exact claimNext_goes _ _ _ _ _ db
    | result c => exact recordResult_goes c db
    | verdict c => exact recordVerdict_goes c db
    | error a => exact recordErrorEvent_goes a db
  obtain ⟨hrun⟩ := hgoes
  unfold call
  split at hrun
  · next heq => rw [heq]; exact hrun
  · next heq => rw [heq]; exact hrun

end Centinal26.Fleet
