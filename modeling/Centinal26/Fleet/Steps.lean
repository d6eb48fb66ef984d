/-
What a committed block has done.
-/
import Centinal26.Fleet.Controller
import Centinal26.Lib.Chain
import Centinal26.Lib.Ends

namespace Centinal26.Fleet

open Py Steps

variable {H : Host}

/-- If the block commits, `Q` holds of what it answers and leaves. -/
abbrev Commits {α : Type} (m : FBlock α) (db : Db) (Q : α → Db → Prop) : Prop :=
  m.Ends db Q fun _ _ => True

variable {α : Type} {db : Db} {m : FBlock α} {Q : α → Db → Prop}

variable {db' : Db} {a : α} {β : Type} {f : α → FBlock β}

theorem Commits.step (h : m db = (.ok a, db')) (hQ : Q a db') : Commits m db Q :=
  ⟨by rw [h]; exact hQ⟩

theorem Commits.pure (hQ : Q a db) : Commits (pure a) db Q := .step rfl hQ

theorem Commits.error {e : PyErr} (h : m db = (.error e, db')) : Commits m db Q :=
  ⟨by rw [h]; trivial⟩

theorem Commits.bind {R : α → Db → Prop} {Q : β → Db → Prop} (hm : Commits m db R)
    (hf : ∀ a db', R a db' → Commits (f a) db' Q) : Commits (m >>= f) db Q :=
  Block.Ends.bind hm hf

theorem Commits.after {r : Except PyErr α}
    {Q : β → Db → Prop} (hf : ∀ a, r = .ok a → Commits (f a) db Q) :
    Commits (liftPy r >>= f) db Q := by
  refine Commits.bind (R := fun a db' => r = .ok a ∧ db' = db) ?_ ?_
  · cases hr : r with
    | ok a => exact .step rfl ⟨rfl, rfl⟩
    | error e => exact .error rfl
  · rintro a _ ⟨hr, rfl⟩
    exact hf a hr

-- == events

/-- The event's hash is that of its body. -/
def FleetEvent.Sound (H : Host) (e : FleetEvent) : Prop :=
  ∃ text, Events.canonicalJson e.body = .ok text ∧ H.sha256 text = e.eventHash

/-- One event has been appended. -/
structure Logged (H : Host) (kind : EventKind) (entityId : Text) (db db' : Db) : Prop where
  appended : ∃ e : FleetEvent, db' = { db with events := db.events ++ [e] }
    ∧ e.eventType = kind ∧ e.entityId = entityId ∧ e.prevEventHash = db.lastHash
    ∧ e.Sound H

theorem appendEvent_commits (kind : EventKind) (entityId : Text)
    (members : List (PyStr × Json)) (now : Instant) (db : Db) :
    Commits (appendEvent H kind entityId members now) db
      fun _ db' => Logged H kind entityId db db' := by
  constructor
  unfold appendEvent
  dsimp only
  cases htext : Events.canonicalJson (eventBody (H.isoformat now).str
      (py kind.value) entityId.str (fieldsOf members) db.lastHash.str) with
  | error e => trivial
  | ok text =>
    dsimp only
    split
    · next heq =>
      split at heq
      · cases heq
      · cases heq
        exact ⟨_, rfl, rfl, rfl, rfl, text, htext, rfl⟩
    · trivial

namespace Logged

variable {kind : EventKind} {entityId : Text} {db db' : Db}

theorem states (h : Logged H kind entityId db db') : db'.states = db.states := by
  obtain ⟨e, rfl, -⟩ := h.appended
  rfl

theorem state? (h : Logged H kind entityId db db') (j : Text) : db'.state? j = db.state? j := by
  unfold Db.state?
  rw [h.states]

theorem contracts (h : Logged H kind entityId db db') : db'.contracts = db.contracts := by
  obtain ⟨e, rfl, -⟩ := h.appended
  rfl

theorem results (h : Logged H kind entityId db db') : db'.results = db.results := by
  obtain ⟨e, rfl, -⟩ := h.appended
  rfl

theorem verdicts (h : Logged H kind entityId db db') : db'.verdicts = db.verdicts := by
  obtain ⟨e, rfl, -⟩ := h.appended
  rfl

end Logged

-- == contracts

structure Created (H : Host) (a : ContractArgs) (role : Role) (id : Text)
    (db db' : Db) : Prop where
  inserted : ∃ row contracts states, row.contractId = id
    ∧ row.retryBudget = a.retryBudget ∧ db.contracts.insert? row = some contracts
    ∧ db.states.insert? ⟨id, .ready, role, none, none, 0⟩ = some states
    ∧ Logged H .contractCreated id { db with contracts := contracts, states := states } db'

theorem insertContract_commits (row : ContractRow) (db : Db) :
    Commits (insertContract row) db fun _ db' => ∃ contracts,
      db.contracts.insert? row = some contracts ∧ db' = { db with contracts := contracts } := by
  constructor
  unfold insertContract
  split
  · next heq =>
    split at heq
    · cases heq
    · split at heq
      · cases heq
      · next hinsert =>
        cases heq
        exact ⟨_, hinsert, rfl⟩
  · trivial

theorem insertState_commits (row : StateRow) (db : Db) :
    Commits (insertState row) db fun _ db' => ∃ states,
      db.states.insert? row = some states ∧ db' = { db with states := states } := by
  constructor
  unfold insertState
  split
  · next heq =>
    split at heq
    · cases heq
    · next hinsert =>
      cases heq
      exact ⟨_, hinsert, rfl⟩
  · trivial

theorem createBlock_commits (a : ContractArgs) (role : Role)
    (onVerified : Option Role) (score : FloatLit) (contractHash : Text) (db : Db) :
    Commits (createBlock H a role onVerified score contractHash) db
      fun _ db' => Created H a role (idOf "contract:" contractHash) db db' := by
  refine Commits.after fun columns _ => ?_
  refine Commits.bind (insertContract_commits _ _) ?_
  rintro - - ⟨contracts, hcontracts, rfl⟩
  refine Commits.bind (insertState_commits _ _) ?_
  rintro - - ⟨states, hstates, rfl⟩
  refine Commits.bind (appendEvent_commits _ _ _ _ _) fun _ db' hlogged => ?_
  exact .pure ⟨_, contracts, states, rfl, rfl, hcontracts, hstates, hlogged⟩

-- == claims

/-- The gates of `claim_next` let a candidate through. -/
def ClaimArgs.admits (a : ClaimArgs) (db : Db) (row : Candidate) : Bool :=
  dependenciesSatisfied db row.contract && match contracted db row.contract.subsystem a.now with
      | .ok shut => !a.shutOut shut
      | .error _ => false

inductive Turn (H : Host) (a : ClaimArgs) (row : Candidate) (db db' : Db) : Option Claimed → Prop
  | skipped (h : db' = db) : Turn H a row db db' none
  | failed (hspent : row.spent = true) (h : Logged H .contractFailed row.contract.contractId
        (db.updateState row.contract.contractId StateRow.fail StateRow.fail_contractId) db') :
      Turn H a row db db' none
  | granted {leaseUntil : Instant} {claimer : Text}
      (hspent : row.spent = false) (hadmits : a.admits db row = true)
      (hlease : addSeconds a.now a.leaseSeconds = .ok leaseUntil)
      (h : Logged H .contractClaimed row.contract.contractId (db.updateState row.contract.contractId
          (StateRow.claim claimer leaseUntil) (StateRow.claim_contractId _ _)) db') :
      Turn H a row db db' (some ⟨row.contract, claimer, leaseUntil, row.attemptCount + 1⟩)

theorem claimOne_commits (a : ClaimArgs) (row : Candidate) (db : Db) :
    Commits (claimOne H a row) db fun item db' => Turn H a row db db' item := by
  unfold claimOne
  split
  · next hspent =>
    refine Commits.bind (R := fun _ mid => mid
      = db.updateState row.contract.contractId StateRow.fail StateRow.fail_contractId)
      (.step rfl rfl) ?_
    rintro - - rfl
    refine Commits.bind (appendEvent_commits _ _ _ _ _) fun _ db' hlogged => ?_
    exact .pure (.failed hspent hlogged)
  · next hspent =>
    refine Commits.bind (R := fun satisfied mid =>
      satisfied = dependenciesSatisfied db row.contract ∧ mid = db)
      (.step rfl ⟨rfl, rfl⟩) ?_
    rintro satisfied mid ⟨hsatisfied, rfl⟩
    split
    · exact .pure (.skipped rfl)
    next hdeps =>
    refine Commits.bind (R := fun shut mid' =>
      contracted mid row.contract.subsystem a.now = .ok shut ∧ mid' = mid) ?_ ?_
    · cases hshut : contracted mid row.contract.subsystem a.now with
      | ok shut => exact .step (congrArg (·, mid) hshut) ⟨rfl, rfl⟩
      | error e => exact .error (congrArg (·, mid) hshut)
    rintro shut mid ⟨hshut, rfl⟩
    split
    · exact .pure (.skipped rfl)
    next hopen =>
    have hadmits : a.admits mid row = true := by
      unfold ClaimArgs.admits
      rw [hshut, ← hsatisfied]
      have hsatisfied : satisfied = true := by simpa using hdeps
      rw [hsatisfied]
      simpa using hopen
    refine Commits.after fun leaseUntil hlease => ?_
    refine Commits.after fun claimer _ => ?_
    refine Commits.bind (R := fun _ mid' => mid'
      = Db.updateState _ row.contract.contractId (StateRow.claim claimer leaseUntil)
        (StateRow.claim_contractId _ _)) (.step rfl rfl) ?_
    rintro - - rfl
    refine Commits.bind (appendEvent_commits _ _ _ _ _) fun _ db' hlogged => ?_
    exact .pure (.granted (by simpa using hspent) hadmits hlease hlogged)

inductive Turns (H : Host) (a : ClaimArgs) : List Candidate → List Claimed → Db → Db → Prop
  | done {rows : List Candidate} {db : Db} : Turns H a rows [] db db
  | turn {row : Candidate} {rows : List Candidate} {item : Option Claimed}
      {items : List Claimed} {db mid db' : Db} (h : Turn H a row db mid item)
      (hs : Turns H a rows items mid db') :
      Turns H a (row :: rows) (item.toList ++ items) db db'

theorem claimEach_commits (a : ClaimArgs) (rows : List Candidate)
    (claimed : List Claimed) (db : Db) : Commits (claimEach H a rows claimed) db fun out db' =>
      ∃ items, out = claimed ++ items ∧ Turns H a rows items db db' := by
  induction rows generalizing claimed db with
  | nil => exact .pure ⟨[], (List.append_nil _).symm, .done⟩
  | cons row rows ih =>
    unfold claimEach
    split
    · exact .pure ⟨[], (List.append_nil _).symm, .done⟩
    refine Commits.bind (claimOne_commits a row db) fun item mid hturn => ?_
    refine (ih _ mid).imp ?_ fun _ _ _ => trivial
    rintro out db' ⟨items, rfl, hs⟩
    exact ⟨item.toList ++ items, List.append_assoc _ _ _, .turn hturn hs⟩

-- == handoffs

structure HandedOver (H : Host) (contractId sourceResultId : Text)
    (fromRole toRole : Role) (reason : String) (now : Instant) (db db' : Db) :
    Prop where
  handed : ∃ digest row,
    handoffDigest H contractId sourceResultId fromRole toRole reason now = .ok digest
    ∧ row.handoffId = idOf "handoff:" digest ∧ row.handoffHash = digest
    ∧ Logged H .handoffCreated row.handoffId
      ((db.insertHandoff row).updateState contractId (StateRow.hand toRole)
        (StateRow.hand_contractId _)) db'

theorem createHandoff_commits (contractId sourceResultId : Text)
    (fromRole toRole : Role) (reason : String) (now : Instant) (db : Db) :
    Commits (createHandoff H contractId sourceResultId fromRole toRole reason now) db fun _ db' =>
        HandedOver H contractId sourceResultId fromRole toRole reason now db db' := by
  refine Commits.after fun digest hdigest => ?_
  refine Commits.bind (R := fun _ mid => mid = db.insertHandoff ⟨idOf "handoff:" digest,
    contractId, some sourceResultId, fromRole, toRole, Text.lit reason, now, digest⟩)
    (.step rfl rfl) ?_
  rintro - - rfl
  refine Commits.bind (R := fun _ mid => mid = Db.updateState _ contractId
    (StateRow.hand toRole) (StateRow.hand_contractId _)) (.step rfl rfl) ?_
  rintro - - rfl
  refine Commits.bind (appendEvent_commits _ _ _ _ _) fun _ db' hlogged => ?_
  exact .pure ⟨digest, ⟨idOf "handoff:" digest, contractId, some sourceResultId,
    fromRole, toRole, Text.lit reason, now, digest⟩, hdigest, rfl, rfl, hlogged⟩

-- == results

inductive ResultEffect (H : Host) (a : ResultArgs) (resultId : Text) (db db' : Db) : Prop
  | handed (hawaits : a.status ∈ awaitingVerification.map py)
      (h : HandedOver H a.contractId resultId a.role .judge
        "independent verification required" a.now db db')
  | success {status : Status} (hawaits : a.status ∉ awaitingVerification.map py)
      (hstatus : Status.named? Status.success a.status = some status)
      (h : db' = db.updateState a.contractId (StateRow.put status) (StateRow.put_contractId _))
  | closed {status : Status} (hawaits : a.status ∉ awaitingVerification.map py)
      (hstatus : Status.named? Status.closing a.status = some status)
      (h : db' = db.updateState a.contractId (StateRow.put status) (StateRow.put_contractId _))
  | again (hawaits : a.status ∉ awaitingVerification.map py)
      (h : db' = db.updateState a.contractId (StateRow.put .ready) (StateRow.put_contractId _))

theorem resultEffect_commits (a : ResultArgs) (resultId : Text) (db : Db) :
    Commits (resultEffect H a resultId) db fun _ db' => ResultEffect H a resultId db db' := by
  unfold resultEffect
  split
  · next hawaits =>
    refine Commits.bind (createHandoff_commits _ _ _ _ _ _ _) fun _ db' h => ?_
    exact .pure (.handed hawaits h)
  · next hawaits =>
    split
    · next status hstatus => exact .step rfl (.success hawaits hstatus rfl)
    · split
      · next status hstatus =>
        refine Commits.after fun _ _ => ?_
        exact .step rfl (.closed hawaits hstatus rfl)
      · exact .step rfl (.again hawaits rfl)

structure ResultRecorded (H : Host) (a : ResultArgs) (resultHash : Text)
    (db db' : Db) : Prop where
  recorded : ∃ row results mid, row.resultId = idOf "result:" resultHash
    ∧ row.contractId = a.contractId ∧ row.role = a.role ∧ row.status.str = a.status
    ∧ db.results.insert? row = some results
    ∧ ResultEffect H a (idOf "result:" resultHash) { db with results := results } mid
    ∧ Logged H .resultRecorded (idOf "result:" resultHash) mid db'

theorem insertResult_commits (row : ResultRow) (db : Db) :
    Commits (insertResult row) db fun _ db' => ∃ results,
      db.results.insert? row = some results ∧ db' = { db with results := results } := by
  constructor
  unfold insertResult
  split
  · next heq =>
    split at heq
    · cases heq
    · split at heq
      · cases heq
      · next hinsert =>
        cases heq
        exact ⟨_, hinsert, rfl⟩
  · trivial

theorem resultBlock_commits (a : ResultArgs) (resultHash : Text) (db : Db) :
    Commits (resultBlock H a resultHash) db fun _ db' => ResultRecorded H a resultHash db db' := by
  refine Commits.after fun status hstatus => ?_
  refine Commits.after fun payload _ => ?_
  refine Commits.after fun evidenceHash _ => ?_
  refine Commits.bind (insertResult_commits _ _) ?_
  rintro - - ⟨results, hinsert, rfl⟩
  refine Commits.bind (resultEffect_commits _ _ _) fun _ mid heffect => ?_
  refine Commits.bind (appendEvent_commits _ _ _ _ _) fun _ db' hlogged => ?_
  exact .pure ⟨_, results, mid, rfl, rfl, rfl, encode_eq_ok.mp hstatus, hinsert, heffect, hlogged⟩

-- == verdicts

inductive VerdictEffect (H : Host) (a : VerdictArgs) (db db' : Db) : Prop
  | onward {nextRole : Role} (hverdict : a.verdict = .verified)
      (hnext : a.onVerifiedRole = some nextRole)
      (h : HandedOver H a.contractId a.resultId .judge nextRole
        "verified result eligible for next operational stage" a.now db db')
  | verified (hverdict : a.verdict = .verified)
      (h : db' = db.updateState a.contractId (StateRow.judge .verified) (StateRow.judge_contractId _))
  | back (hverdict : a.verdict = .verificationFailed)
      (h : HandedOver H a.contractId a.resultId .judge a.assignedRole
      "verification failed; corrective work required" a.now db db')
  | inconclusive (h : db' = db.updateState a.contractId (StateRow.judge .inconclusive)
        (StateRow.judge_contractId _))
  | blocked (h : db' = db.updateState a.contractId (StateRow.judge .blockedExternal)
        (StateRow.judge_contractId _))

theorem verdictEffect_commits (a : VerdictArgs) (db : Db) :
    Commits (verdictEffect H a) db fun _ db' => VerdictEffect H a db db' := by
  unfold verdictEffect
  split
  · next hverdict =>
    split
    · next hnext =>
      refine Commits.bind (createHandoff_commits _ _ _ _ _ _ _) fun _ db' h => ?_
      exact .pure (.onward hverdict hnext h)
    · exact .step rfl (.verified hverdict rfl)
  · next hverdict =>
    refine Commits.bind (createHandoff_commits _ _ _ _ _ _ _) fun _ db' h => ?_
    exact .pure (.back hverdict h)
  · refine Commits.after fun _ _ => ?_
    exact .step rfl (.inconclusive rfl)
  · refine Commits.after fun _ _ => ?_
    exact .step rfl (.blocked rfl)

structure VerdictRecorded (H : Host) (a : VerdictArgs) (verdictHash : Text)
    (db db' : Db) : Prop where
  recorded : ∃ row verdicts mid, row.verdictId = idOf "verdict:" verdictHash
    ∧ row.resultId = a.resultId ∧ row.contractId = a.contractId
    ∧ row.verdict = a.verdict ∧ db.verdicts.insert? row = some verdicts
    ∧ VerdictEffect H a { db with verdicts := verdicts } mid
    ∧ Logged H .verdictRecorded (idOf "verdict:" verdictHash) mid db'

theorem insertVerdict_commits (row : VerdictRow) (db : Db) :
    Commits (insertVerdict row) db fun _ db' => ∃ verdicts, db.verdicts.insert? row = some verdicts
        ∧ db' = { db with verdicts := verdicts } := by
  constructor
  unfold insertVerdict
  split
  · next heq =>
    split at heq
    · cases heq
    · split at heq
      · cases heq
      · next hinsert =>
        cases heq
        exact ⟨_, hinsert, rfl⟩
  · trivial

theorem verdictBlock_commits (a : VerdictArgs) (verdictHash : Text) (db : Db) :
    Commits (verdictBlock H a verdictHash) db fun _ db' =>
      VerdictRecorded H a verdictHash db db' := by
  refine Commits.after fun verifier _ => ?_
  refine Commits.after fun details _ => ?_
  refine Commits.after fun evidenceHash _ => ?_
  refine Commits.bind (insertVerdict_commits _ _) ?_
  rintro - - ⟨verdicts, hinsert, rfl⟩
  refine Commits.bind (verdictEffect_commits _ _) fun _ mid heffect => ?_
  refine Commits.bind (appendEvent_commits _ _ _ _ _) fun _ db' hlogged => ?_
  exact .pure ⟨_, verdicts, mid, rfl, rfl, rfl, rfl, hinsert, heffect, hlogged⟩

-- == errors

structure ErrorRecorded (H : Host) (a : ErrorArgs) (digest : Text) (db db' : Db) : Prop where
  recorded : ∃ row, row.errorId = idOf "error:" digest ∧ row.eventHash = digest
    ∧ row.subsystem.str = a.subsystem
    ∧ Logged H .errorRecorded (idOf "error:" digest) (db.insertError row) db'

theorem errorBlock_commits (a : ErrorArgs) (digest : Text) (db : Db) :
    Commits (errorBlock H a digest) db fun _ db' => ErrorRecorded H a digest db db' := by
  refine Commits.after fun subsystem hsubsystem => ?_
  refine Commits.after fun eventType _ => ?_
  refine Commits.after fun severity _ => ?_
  refine Commits.after fun details _ => ?_
  refine Commits.bind (R := fun _ mid => mid = db.insertError ⟨idOf "error:" digest,
    subsystem, eventType, severity, a.recovered, a.now, details, digest⟩)
    (.step rfl rfl) ?_
  rintro - - rfl
  refine Commits.bind (appendEvent_commits _ _ _ _ _) fun _ db' hlogged => ?_
  exact .pure ⟨_, rfl, rfl, encode_eq_ok.mp hsubsystem, hlogged⟩

-- == frames

@[simp] theorem insertHandoff_states (db : Db) (row : HandoffRow) :
    (db.insertHandoff row).states = db.states := by
  unfold Db.insertHandoff
  split
  · rfl
  · split <;> rfl

@[simp] theorem insertError_states (db : Db) (row : ErrorRow) :
    (db.insertError row).states = db.states := by
  unfold Db.insertError
  split
  · rfl
  · split <;> rfl

theorem state?_congr {db db' : Db} (h : db'.states = db.states) (j : Text) :
    db'.state? j = db.state? j := by
  unfold Db.state?
  rw [h]

variable {id contractId sourceResultId resultId : Text} {fromRole toRole : Role} {reason : String}
  {now : Instant} {rows : List Candidate} {items : List Claimed}

theorem Created.state? {a : ContractArgs} {role : Role} {db db' : Db}
    (h : Created H a role id db db') (j : Text) :
    db.state? id = none ∧ db'.state? j
        = if j = id then some ⟨id, .ready, role, none, none, 0⟩ else db.state? j := by
  obtain ⟨row, contracts, states, -, -, -, hstates, hlogged⟩ := h.inserted
  refine ⟨Table.find?_of_insert hstates, ?_⟩
  rw [hlogged.state? j]
  exact Table.find?_insert hstates j

theorem HandedOver.state? {db db' : Db}
    (h : HandedOver H contractId sourceResultId fromRole toRole reason now db db')
    (j : Text) :
    db'.state? j = if j = contractId then (db.state? contractId).map (StateRow.hand toRole)
        else db.state? j := by
  obtain ⟨digest, row, -, -, -, hlogged⟩ := h.handed
  rw [hlogged.state? j, Db.state?_updateState,
    state?_congr (insertHandoff_states db row), state?_congr (insertHandoff_states db row)]

theorem ResultEffect.state? {a : ResultArgs} {db db' : Db} (h : ResultEffect H a resultId db db') :
    ∃ f : StateRow → StateRow, (∀ s, (f s).attemptCount = s.attemptCount) ∧ ∀ j, db'.state? j
        = if j = a.contractId then (db.state? a.contractId).map f else db.state? j := by
  cases h with
  | handed _ h => exact ⟨_, by exact fun _ => rfl, h.state?⟩
  | success _ _ h | closed _ _ h | again _ h =>
    subst h
    exact ⟨_, by exact fun _ => rfl, Db.state?_updateState db _ _ _⟩

theorem VerdictEffect.state? {a : VerdictArgs} {db db' : Db} (h : VerdictEffect H a db db') :
    ∃ f : StateRow → StateRow, (∀ s, (f s).attemptCount = s.attemptCount) ∧ ∀ j, db'.state? j
        = if j = a.contractId then (db.state? a.contractId).map f else db.state? j := by
  cases h with
  | onward _ _ h => exact ⟨_, by exact fun _ => rfl, h.state?⟩
  | back _ h => exact ⟨_, by exact fun _ => rfl, h.state?⟩
  | verified _ h | inconclusive h | blocked h =>
    subst h
    exact ⟨_, by exact fun _ => rfl, Db.state?_updateState db _ _ _⟩

theorem ResultRecorded.state? {a : ResultArgs} {resultHash : Text} {db db' : Db}
    (h : ResultRecorded H a resultHash db db') :
    ∃ f : StateRow → StateRow, (∀ s, (f s).attemptCount = s.attemptCount) ∧ ∀ j, db'.state? j
        = if j = a.contractId then (db.state? a.contractId).map f else db.state? j := by
  obtain ⟨row, results, mid, -, -, -, -, -, heffect, hlogged⟩ := h.recorded
  obtain ⟨f, hattempts, hf⟩ := heffect.state?
  exact ⟨f, hattempts, fun j => (hlogged.state? j).trans (hf j)⟩

theorem VerdictRecorded.state? {a : VerdictArgs} {verdictHash : Text} {db db' : Db}
    (h : VerdictRecorded H a verdictHash db db') :
    ∃ f : StateRow → StateRow, (∀ s, (f s).attemptCount = s.attemptCount) ∧ ∀ j, db'.state? j
        = if j = a.contractId then (db.state? a.contractId).map f else db.state? j := by
  obtain ⟨row, verdicts, mid, -, -, -, -, -, heffect, hlogged⟩ := h.recorded
  obtain ⟨f, hattempts, hf⟩ := heffect.state?
  exact ⟨f, hattempts, fun j => (hlogged.state? j).trans (hf j)⟩

theorem ErrorRecorded.state? {a : ErrorArgs} {digest : Text} {db db' : Db}
    (h : ErrorRecorded H a digest db db') (j : Text) : db'.state? j = db.state? j := by
  obtain ⟨row, -, -, -, hlogged⟩ := h.recorded
  exact (hlogged.state? j).trans (state?_congr (insertError_states db row) j)

variable {a : ClaimArgs} {row : Candidate} {item : Option Claimed}

theorem Turn.state? {db db' : Db}
    (h : Turn H a row db db' item) (j : Text) : db'.state? j = db.state? j
      ∨ j = row.contract.contractId ∧ item = none
        ∧ row.spent = true ∧ db'.state? j = (db.state? j).map StateRow.fail
      ∨ j = row.contract.contractId ∧ ∃ c, item = some c ∧ c.contract = row.contract
          ∧ addSeconds a.now a.leaseSeconds = .ok c.leaseUntil
          ∧ row.spent = false ∧ a.admits db row = true
          ∧ db'.state? j = (db.state? j).map (StateRow.claim c.claimedBy c.leaseUntil) := by
  cases h with
  | skipped h => exact Or.inl (by rw [h])
  | failed hspent h =>
    rw [h.state? j, Db.state?_updateState]
    split
    · next hj =>
      subst hj
      exact Or.inr (Or.inl ⟨rfl, rfl, hspent, rfl⟩)
    · exact Or.inl rfl
  | granted hspent hadmits hlease h =>
    rw [h.state? j, Db.state?_updateState]
    split
    · next hj =>
      subst hj
      exact Or.inr (Or.inr ⟨rfl, _, rfl, rfl, hlease, hspent, hadmits, rfl⟩)
    · exact Or.inl rfl

theorem Turn.errors {db db' : Db} (h : Turn H a row db db' item) : db'.errors = db.errors := by
  cases h with
  | skipped h => rw [h]
  | failed _ h | granted _ _ _ h =>
    obtain ⟨e, rfl, -⟩ := h.appended
    rfl

theorem Turn.admits_of_admits {other : Candidate} {db db' : Db} (h : Turn H a row db db' item)
    (hadmits : a.admits db' other = true) : a.admits db other = true := by
  unfold ClaimArgs.admits at hadmits ⊢
  rw [Bool.and_eq_true] at hadmits ⊢
  obtain ⟨hdeps, hgate⟩ := hadmits
  refine ⟨?_, ?_⟩
  · unfold dependenciesSatisfied at hdeps ⊢
    rw [List.all_eq_true] at hdeps ⊢
    intro d hd
    have hsuccess := hdeps d hd
    rcases h.state? d with hsame | ⟨-, -, -, hfail⟩ | ⟨-, c, -, -, -, -, -, hclaim⟩
    · rw [hsame] at hsuccess
      exact hsuccess
    · rw [hfail] at hsuccess
      cases hs : db.state? d with
      | none =>
        rw [hs] at hsuccess
        cases hsuccess
      | some s =>
        rw [hs] at hsuccess
        exact absurd (of_decide_eq_true hsuccess) (by decide : Status.failedPreserved ∉ _)
    · rw [hclaim] at hsuccess
      cases hs : db.state? d with
      | none =>
        rw [hs] at hsuccess
        cases hsuccess
      | some s =>
        rw [hs] at hsuccess
        exact absurd (of_decide_eq_true hsuccess) (by decide : Status.running ∉ _)
  · unfold contracted at hgate ⊢
    rw [h.errors] at hgate
    exact hgate

theorem Turns.admitted
    {db db' : Db} (h : Turns H a rows items db db') {c : Claimed} (hc : c ∈ items) :
    ∃ row ∈ rows, row.contract = c.contract ∧ row.spent = false ∧ a.admits db row = true := by
  induction h with
  | done => cases hc
  | turn hturn _ ih =>
    rcases List.mem_append.mp hc with hc | hc
    · have hitem := Option.mem_toList.mp hc
      cases hturn with
      | skipped _ => cases hitem
      | failed _ _ => cases hitem
      | granted hspent hadmits _ _ =>
        cases hitem
        exact ⟨_, List.mem_cons_self .., rfl, hspent, hadmits⟩
    · obtain ⟨row, hrow, hcontract, hspent, hadmits⟩ := ih hc
      exact ⟨row, List.mem_cons_of_mem _ hrow, hcontract, hspent, hturn.admits_of_admits hadmits⟩

-- == records

/-- Contracts, results and verdicts are as they were. -/
structure SameRecords (db db' : Db) : Prop where
  contracts : db'.contracts = db.contracts
  results : db'.results = db.results
  verdicts : db'.verdicts = db.verdicts

theorem SameRecords.trans {a b c : Db} (hab : SameRecords a b)
    (hbc : SameRecords b c) : SameRecords a c :=
  ⟨hbc.contracts.trans hab.contracts, hbc.results.trans hab.results,
    hbc.verdicts.trans hab.verdicts⟩

theorem Logged.sameRecords {kind : EventKind} {db db' : Db}
    (h : Logged H kind id db db') : SameRecords db db' :=
  ⟨h.contracts, h.results, h.verdicts⟩

theorem sameRecords_updateState (db : Db) (id : Text) (f : StateRow → StateRow)
    (hf : ∀ r, (f r).contractId = r.contractId) :
    SameRecords db (db.updateState id f hf) := ⟨rfl, rfl, rfl⟩

theorem sameRecords_insertHandoff (db : Db) (row : HandoffRow) :
    SameRecords db (db.insertHandoff row) := by
  unfold Db.insertHandoff
  split
  · exact ⟨rfl, rfl, rfl⟩
  · split <;> exact ⟨rfl, rfl, rfl⟩

theorem sameRecords_insertError (db : Db) (row : ErrorRow) :
    SameRecords db (db.insertError row) := by
  unfold Db.insertError
  split
  · exact ⟨rfl, rfl, rfl⟩
  · split <;> exact ⟨rfl, rfl, rfl⟩

theorem HandedOver.sameRecords {db db' : Db}
    (h : HandedOver H contractId sourceResultId fromRole toRole reason now db db') :
    SameRecords db db' := by
  obtain ⟨digest, row, -, -, -, hlogged⟩ := h.handed
  exact ((sameRecords_insertHandoff db row).trans
    (sameRecords_updateState _ _ _ _)).trans hlogged.sameRecords

theorem Turn.sameRecords {db db' : Db} (h : Turn H a row db db' item) : SameRecords db db' := by
  cases h with
  | skipped h => exact h ▸ ⟨rfl, rfl, rfl⟩
  | failed _ h => exact (sameRecords_updateState _ _ _ _).trans h.sameRecords
  | granted _ _ _ h => exact (sameRecords_updateState _ _ _ _).trans h.sameRecords

theorem Turns.sameRecords {db db' : Db} (h : Turns H a rows items db db') : SameRecords db db' := by
  induction h with
  | done => exact ⟨rfl, rfl, rfl⟩
  | turn hturn _ ih => exact hturn.sameRecords.trans ih

theorem ResultEffect.sameRecords {a : ResultArgs} {db db' : Db}
    (h : ResultEffect H a resultId db db') : SameRecords db db' := by
  cases h with
  | handed _ h => exact h.sameRecords
  | success _ _ h | closed _ _ h | again _ h => exact h ▸ sameRecords_updateState ..

theorem VerdictEffect.sameRecords {a : VerdictArgs} {db db' : Db}
    (h : VerdictEffect H a db db') : SameRecords db db' := by
  cases h with
  | onward _ _ h => exact h.sameRecords
  | back _ h => exact h.sameRecords
  | verified _ h | inconclusive h | blocked h => exact h ▸ sameRecords_updateState ..

-- == blocks

/-- What a block has done, if it committed. -/
inductive Wrote (H : Host) : Write → Db → Reply → Db → Prop
  | create {a : ContractArgs} {role : Role} {onVerified : Option Role}
      {score : FloatLit} {contractHash : Text} {db db' : Db}
      (h : Created H a role (idOf "contract:" contractHash) db db') :
      Wrote H (.create a role onVerified score contractHash) db
        (.created (idOf "contract:" contractHash)) db'
  | claim {a : ClaimArgs} {items : List Claimed} {db db' : Db}
      (h : Turns H a a.rows items db db') : Wrote H (.claim a) db (.claimed items) db'
  | result {a : ResultArgs} {resultHash : Text} {db db' : Db}
      (h : ResultRecorded H a resultHash db db') :
      Wrote H (.result a resultHash) db (.result (idOf "result:" resultHash)) db'
  | verdict {a : VerdictArgs} {verdictHash : Text} {db db' : Db}
      (h : VerdictRecorded H a verdictHash db db') :
      Wrote H (.verdict a verdictHash) db (.verdict (idOf "verdict:" verdictHash)) db'
  | error {a : ErrorArgs} {digest : Text} {db db' : Db} (h : ErrorRecorded H a digest db db') :
      Wrote H (.error a digest) db (.error (idOf "error:" digest) false) db'

theorem block_commits (w : Write) (db : Db) :
    Commits (w.block H) db fun reply db' => Wrote H w db reply db' := by
  cases w with
  | create a role onVerified score contractHash =>
    exact Commits.bind (createBlock_commits _ _ _ _ _ _) fun _ _ h =>
      .pure (.create h)
  | claim a =>
    refine Commits.bind (claimEach_commits a a.rows [] db) ?_
    rintro _ db' ⟨items, rfl, h⟩
    exact .pure (.claim h)
  | result a resultHash =>
    exact Commits.bind (resultBlock_commits _ _ _) fun _ _ h => .pure (.result h)
  | verdict a verdictHash =>
    exact Commits.bind (verdictBlock_commits _ _ _) fun _ _ h => .pure (.verdict h)
  | error a digest =>
    exact Commits.bind (errorBlock_commits _ _ _) fun _ _ h => .pure (.error h)

theorem transaction_cases (w : Write) (db : Db) :
    (∃ reply db', transaction (w.block H) db = (.ok reply, db')
        ∧ (w.block H db).1.isOk = true ∧ Wrote H w db reply db')
      ∨ ∃ e, transaction (w.block H) db = (.error e, db) ∧ (w.block H db).1.isOk = false := by
  obtain ⟨hrun⟩ := block_commits (H := H) w db
  unfold transaction
  cases hout : w.block H db with
  | mk r db' =>
    rw [hout] at hrun
    cases r with
    | ok reply => exact Or.inl ⟨reply, db', rfl, rfl, hrun⟩
    | error e => exact Or.inr ⟨e, rfl, rfl⟩

end Centinal26.Fleet
