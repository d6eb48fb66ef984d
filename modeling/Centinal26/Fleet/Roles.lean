/-
Who may say that a contract has succeeded.
-/
import Centinal26.Fleet.Calls

namespace Centinal26.Fleet

open Py Steps

variable {H : Host} {F : FleetHost}

-- == vocabulary

/-- If the contract has succeeded, one of its results has been verified, or the
judge has recorded the status. -/
def Earned (db : Db) (s : StateRow) : Prop :=
  s.status ∈ Status.success → (∃ v ∈ db.verdicts.rows, v.verdict = .verified
      ∧ ∃ r ∈ db.results.rows, r.resultId = v.resultId ∧ r.contractId = s.contractId)
    ∨ ∃ r ∈ db.results.rows, r.contractId = s.contractId ∧ r.role = .judge
      ∧ r.status.str = py s.status.value

/-- Success is earned, and so is every dependency that counts as satisfied. -/
structure Independent (db : Db) : Prop where
  earned : ∀ id s, db.state? id = some s → Earned db s
  satisfied : ∀ c ∈ db.contracts.rows, dependenciesSatisfied db c = true →
    ∀ d ∈ c.dependencies, ∃ s, db.state? d = some s ∧ s.status ∈ Status.success ∧ Earned db s

/-- `record_result` lets the role through. -/
def owns (db : Db) (c : ResultCall) : Bool :=
  match Role.ofName? c.role, encode c.contractId with
  | some role, .ok id =>
    match db.joined? id with
    | some (_, s) => decide (s.ownerRole = role ∨ role = .judge)
    | none => false
  | _, _ => false

/-- No role but the judge reports success on a contract it owns. -/
def judged (e : Done) : Bool :=
  match e.input with
  | .result c => decide (Status.named? Status.success c.status = none)
      || decide (Role.ofName? c.role = some .judge) || !owns e.before c
  | _ => true

-- == success

theorem named?_eq_some {statuses : List Status} {name : PyStr} {status : Status}
    (h : Status.named? statuses name = some status) :
    status ∈ statuses ∧ py status.value = name := by
  have hname := List.find?_some h
  exact ⟨List.mem_of_find?_eq_some h, of_decide_eq_true hname⟩

variable {s' : StateRow} {db db' : Db} {id : Text}

theorem not_success_of_map {r : Option StateRow} (f : StateRow → StateRow)
    (status : Status) (hf : ∀ s, (f s).status = status)
    (hstatus : status ∉ Status.success) (h : r.map f = some s') :
    s'.status ∉ Status.success := by
  obtain ⟨s, -, rfl⟩ := Option.map_eq_some_iff.mp h
  rwa [hf s]

theorem Turns.succeeds {a : ClaimArgs} {rows : List Candidate} {items : List Claimed}
    (h : Turns H a rows items db db')
    (hs : db'.state? id = some s') (hsuccess : s'.status ∈ Status.success) :
    db.state? id = some s' := by
  induction h with
  | done => exact hs
  | turn hturn _ ih =>
    have hmid := ih hs
    rcases hturn.state? id with
      hsame | ⟨-, -, -, hfail⟩ | ⟨-, c, -, -, -, -, -, hclaim⟩
    · exact hsame ▸ hmid
    · exact absurd hsuccess
        (not_success_of_map StateRow.fail .failedPreserved (fun _ => rfl) (by decide)
          (hfail ▸ hmid))
    · exact absurd hsuccess
        (not_success_of_map (StateRow.claim _ _) .running (fun _ => rfl) (by decide)
          (hclaim ▸ hmid))

variable {a : ResultArgs} {contractId : Text} {s : StateRow}

theorem HandedOver.succeeds {sourceResultId : Text}
    {fromRole toRole : Role} {reason : String} {now : Instant}
    (h : HandedOver H contractId sourceResultId fromRole toRole reason now db db')
    (hs : db'.state? id = some s')
    (hsuccess : s'.status ∈ Status.success) : db.state? id = some s' := by
  rw [h.state? id] at hs
  split at hs
  · exact absurd hsuccess (not_success_of_map (StateRow.hand toRole) .ready (fun _ => rfl)
      (by decide) hs)
  · exact hs

theorem success_updateState (f : StateRow → StateRow)
    {hf : ∀ r, (f r).contractId = r.contractId} (status : Status)
    (hstatus : ∀ s, (f s).status = status)
    (hs : (db.updateState contractId f hf).state? id = some s') :
    db.state? id = some s' ∨ id = contractId ∧ s'.status = status := by
  rw [Db.state?_updateState] at hs
  split at hs
  · next hid =>
    obtain ⟨s, -, rfl⟩ := Option.map_eq_some_iff.mp hs
    exact Or.inr ⟨hid, hstatus s⟩
  · exact Or.inl hs

theorem ResultEffect.succeeds {resultId : Text} (h : ResultEffect H a resultId db db')
    (hs : db'.state? id = some s') (hsuccess : s'.status ∈ Status.success) : db.state? id = some s'
      ∨ id = a.contractId ∧ Status.named? Status.success a.status = some s'.status := by
  have hclosing : ∀ status ∈ Status.closing, status ∉ Status.success := by decide
  cases h with
  | handed _ h => exact Or.inl (h.succeeds hs hsuccess)
  | @success status _ hstatus h =>
    subst h
    refine (success_updateState (StateRow.put status) status (fun _ => rfl) hs).imp_right
      fun ⟨hid, heq⟩ => ?_
    exact ⟨hid, heq ▸ hstatus⟩
  | @closed status _ hstatus h =>
    subst h
    refine (success_updateState (StateRow.put status) status (fun _ => rfl) hs).imp_right
      fun ⟨hid, heq⟩ => ?_
    exact absurd (heq ▸ hsuccess) (hclosing _ (named?_eq_some hstatus).1)
  | again _ h =>
    subst h
    refine (success_updateState (StateRow.put .ready) .ready (fun _ => rfl) hs).imp_right
      fun ⟨hid, heq⟩ => ?_
    rw [heq] at hsuccess
    exact absurd hsuccess (by decide)

theorem VerdictEffect.succeeds {a : VerdictArgs} (h : VerdictEffect H a db db')
    (hs : db'.state? id = some s') (hsuccess : s'.status ∈ Status.success) :
    db.state? id = some s' ∨ id = a.contractId ∧ a.verdict = .verified := by
  cases h with
  | onward _ _ h => exact Or.inl (h.succeeds hs hsuccess)
  | back _ h => exact Or.inl (h.succeeds hs hsuccess)
  | verified hverdict h =>
    subst h
    refine (success_updateState (StateRow.judge .verified) .verified (fun _ => rfl)
      hs).imp_right fun ⟨hid, _⟩ => ⟨hid, hverdict⟩
  | inconclusive h =>
    subst h
    refine (success_updateState (StateRow.judge .inconclusive) .inconclusive
      (fun _ => rfl) hs).imp_right fun ⟨_, heq⟩ => ?_
    exact absurd (heq ▸ hsuccess) (by decide)
  | blocked h =>
    subst h
    refine (success_updateState (StateRow.judge .blockedExternal) .blockedExternal
      (fun _ => rfl) hs).imp_right fun ⟨_, heq⟩ => ?_
    exact absurd (heq ▸ hsuccess) (by decide)

-- == steps

theorem Earned.mono (h : Earned db s) (hresults : ∀ r ∈ db.results.rows, r ∈ db'.results.rows)
    (hverdicts : ∀ v ∈ db.verdicts.rows, v ∈ db'.verdicts.rows) : Earned db' s := by
  intro hsuccess
  rcases h hsuccess with ⟨v, hv, hverified, r, hr, hrv, hrs⟩ | ⟨r, hr, hrest⟩
  · exact Or.inl ⟨v, hverdicts v hv, hverified, r, hresults r hr, hrv, hrs⟩
  · exact Or.inr ⟨r, hresults r hr, hrest⟩

theorem SameRecords.earned (h : SameRecords db db') (hearned : Earned db s) : Earned db' s :=
  hearned.mono (fun _ hr => h.results ▸ hr) fun _ hv => h.verdicts ▸ hv

def AllEarned (db : Db) : Prop := ∀ id s, db.state? id = some s → Earned db s

theorem ResultRecorded.allEarned {resultHash : Text}
    (h : ResultRecorded H a resultHash db db') (hall : AllEarned db)
    (hjudge : Status.named? Status.success a.status = none ∨ a.role = .judge) : AllEarned db' := by
  obtain ⟨row, results, mid, -, hcontract, hrole, hstatus, hinsert, heffect, hlogged⟩ :=
    h.recorded
  have hrows := Table.rows_insert hinsert
  have hsame := heffect.sameRecords.trans hlogged.sameRecords
  intro id s' hs hsuccess
  rw [hlogged.state? id] at hs
  rcases heffect.succeeds hs hsuccess with hold | ⟨hid, hname⟩
  · refine hsame.earned ?_ hsuccess
    refine (hall id s' hold).mono (fun r hr => ?_) fun v hv => hv
    show r ∈ results.rows
    rw [hrows]
    exact List.mem_append_left _ hr
  · rcases hjudge with hnone | hjudge
    · rw [hnone] at hname
      cases hname
    · refine Or.inr ⟨row, ?_, ?_, hrole.trans hjudge, ?_⟩
      · rw [hsame.results]
        show row ∈ results.rows
        rw [hrows]
        exact List.mem_append_right _ (List.mem_singleton_self _)
      · rw [hcontract, ← hid]
        exact (Table.key_of_find? hs).symm
      · rw [hstatus, (named?_eq_some hname).2]

theorem VerdictRecorded.allEarned {a : VerdictArgs} {verdictHash : Text}
    (h : VerdictRecorded H a verdictHash db db') (hall : AllEarned db)
    (hresult : ∃ r ∈ db.results.rows, r.resultId = a.resultId
      ∧ r.contractId = a.contractId) : AllEarned db' := by
  obtain ⟨row, verdicts, mid, -, hrid, -, hverdict, hinsert, heffect, hlogged⟩ :=
    h.recorded
  have hrows := Table.rows_insert hinsert
  have hsame := heffect.sameRecords.trans hlogged.sameRecords
  intro id s' hs hsuccess
  rw [hlogged.state? id] at hs
  rcases heffect.succeeds hs hsuccess with hold | ⟨hid, hverified⟩
  · refine hsame.earned ?_ hsuccess
    refine (hall id s' hold).mono (fun r hr => hr) fun v hv => ?_
    show v ∈ verdicts.rows
    rw [hrows]
    exact List.mem_append_left _ hv
  · obtain ⟨r, hr, hrresult, hrcontract⟩ := hresult
    refine Or.inl ⟨row, ?_, hverdict.trans hverified, r, ?_, ?_, ?_⟩
    · rw [hsame.verdicts]
      show row ∈ verdicts.rows
      rw [hrows]
      exact List.mem_append_right _ (List.mem_singleton_self _)
    · rw [hsame.results]
      exact hr
    · rw [hrresult, hrid]
    · rw [hrcontract, ← hid]
      exact (Table.key_of_find? hs).symm

theorem Ran.allEarned {c : Call} {r : Except PyErr Reply}
    (h : Ran F c db r db') (hC : judged ⟨c, db, r, db'⟩ = true)
    (hall : AllEarned db) : AllEarned db' := by
  cases h with
  | idle _ => exact hall
  | noted _ h =>
    cases h with
    | error h =>
      intro id s hs
      rw [h.state? id] at hs
      obtain ⟨row, -, -, -, hlogged⟩ := h.recorded
      exact ((sameRecords_insertError db row).trans hlogged.sameRecords).earned (hall id s hs)
  | wrote hasks h =>
    cases h with
    | create h =>
      intro id s hs
      rw [(h.state? id).2] at hs
      obtain ⟨row, contracts, states, -, -, -, -, hlogged⟩ := h.inserted
      have hresults : db'.results = db.results := hlogged.results
      have hverdicts : db'.verdicts = db.verdicts := hlogged.verdicts
      split at hs
      · cases hs
        exact fun hsuccess => absurd hsuccess (show Status.ready ∉ Status.success by decide)
      · exact (hall id s hs).mono (fun _ hr => hresults ▸ hr) fun _ hv => hverdicts ▸ hv
    | claim h =>
      intro id s hs hsuccess
      exact h.sameRecords.earned (hall id s (h.succeeds hs hsuccess)) hsuccess
    | result h =>
      cases hasks with
      | @result c id role contract s resultHash hid hrole hs howner =>
        refine h.allEarned hall ?_
        have howns : owns db c = true := by
          unfold owns
          rw [hrole, encode_eq_ok.mpr hid]
          simp only [hs]
          exact decide_eq_true howner
        unfold judged at hC
        simp only [howns, hrole] at hC
        simpa using hC
    | verdict h =>
      cases hasks with
      | @verdict c id verdict r contract verdictHash hverdict hr =>
        refine h.allEarned hall ⟨r, ?_, ?_, rfl⟩
        all_goals
          unfold Db.judged? at hr
          split at hr
          · cases hr
          · next r' hfind =>
            split at hr
            · cases hr
            · cases hr
              first
                | exact Table.mem_of_find? hfind
                | exact Table.key_of_find? hfind
    | error h => cases hasks

-- == runs

theorem AllEarned.independent (h : AllEarned db) : Independent db := by
  refine ⟨h, fun c _ hdeps d hd => ?_⟩
  have hsuccess := List.all_eq_true.mp hdeps d hd
  cases hs : db.state? d with
  | none =>
    rw [hs] at hsuccess
    cases hsuccess
  | some s =>
    rw [hs] at hsuccess
    exact ⟨s, rfl, of_decide_eq_true hsuccess, h d s hs⟩

/-- Where every call is judged, no contract succeeds but by a verdict or the
judge. -/
theorem judged_success (F : FleetHost) (calls : List Call)
    (hC : ∀ e ∈ history F calls, judged e = true) : Independent (afterCalls F calls) := by
  have hrun := Machine.invariant (call F) (C := fun e => judged e = true)
    (I := AllEarned) Db.empty nofun (fun e hv hCe hall => ?_)
    calls hC
  · exact AllEarned.independent hrun
  · obtain ⟨c, db, r, db'⟩ := e
    have hran := call_ran F c db
    have heq : call F c db = (r, db') := hv
    rw [heq] at hran
    exact hran.allEarned hCe hall

/-- A builder's result is handed to the judge, who verifies it. -/
def verifying : List Call :=
  let a := buildContract 1 none
  [.create a, resultAt a "BUILDER" "EXECUTED_AWAITING_VERIFICATION" 1,
    verdictAt (resultOn a .builder "EXECUTED_AWAITING_VERIFICATION" 1) "VERIFIED" 2]

theorem verifying_independent : Independent (afterCalls machine verifying) :=
  judged_success machine verifying (List.all_eq_true.mp (by decide +kernel))

/-- A builder reports its own contract as verified. -/
def selfVerifying : List Call :=
  [.create (buildContract 1 none), resultAt (buildContract 1 none) "BUILDER" "VERIFIED" 1]

/-- The contract is `VERIFIED`, without any verdict or word of the judge. -/
theorem self_verified :
    ((afterCalls machine selfVerifying).state? (idOn (buildContract 1 none))).map
        StateRow.status = some .verified
      ∧ (afterCalls machine selfVerifying).verdicts.rows.length = 0
      ∧ (afterCalls machine selfVerifying).results.rows.map ResultRow.role = [.builder]
      ∧ ¬ Independent (afterCalls machine selfVerifying) := by
  obtain ⟨hstatus, hverdicts, hroles⟩ : ((afterCalls machine selfVerifying).state?
        (idOn (buildContract 1 none))).map StateRow.status = some .verified
      ∧ (afterCalls machine selfVerifying).verdicts.rows.length = 0
      ∧ (afterCalls machine selfVerifying).results.rows.map ResultRow.role = [.builder] := by
    decide +kernel
  refine ⟨hstatus, hverdicts, hroles, fun h => ?_⟩
  generalize afterCalls machine selfVerifying = db at *
  obtain ⟨s, hs, hverified⟩ := Option.map_eq_some_iff.mp hstatus
  rcases h.earned _ s hs (hverified ▸ by decide) with ⟨v, hv, -⟩ | ⟨r, hr, -, hjudge, -⟩
  · rw [List.eq_nil_of_length_eq_zero hverdicts] at hv
    cases hv
  · have hbuilder := List.mem_map_of_mem (f := ResultRow.role) hr
    rw [hroles, List.mem_singleton, hjudge] at hbuilder
    cases hbuilder

end Centinal26.Fleet
