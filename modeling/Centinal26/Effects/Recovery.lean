/-
No effect is wedged in recovery.
-/
import Centinal26.Effects.Runs

namespace Centinal26.Effects

open Py Steps

variable {H : Host}

/-- A failure reported, by the claimant, before an execution was begun: with
no intent to reconcile by, or with an error `json` does not write. -/
def Strands (w : World) : Call → Prop
  | .markExecutionFailure c error false =>
    ∃ row, (w.view 0).effect? row.effectId = some row
      ∧ c.effectId = row.effectId.str ∧ claimIdentity row c = true
      ∧ row.state = .claimed
      ∧ (row.executionIntentJson = none ∨ ∃ e, dumps error = .error e)
  | _ => False

variable {row row' : EffectRow} {w : World}

variable {mv : Move} {call : Call} {r : Except LedgerError Reply}

/-- An effect is open after a move if it was open before, if an execution was
begun, or if a failure was reported of one that was not. -/
theorem Transition.isOpen
    (h : Transition H mv row row') (ho : row'.state.isOpen) : (∃ token now, mv = .began token now
        ∧ row'.executionIntentJson.isSome = true)
      ∨ (row'.executionIntentJson = row.executionIntentJson
        ∧ (row.state.isOpen ∨ (mv = .failed false ∧ row.state = .claimed))) := by
  cases h with
  | begin _ _ _ _ => exact Or.inl ⟨_, _, rfl, rfl⟩
  | @fail _ n _ hs =>
    cases n with
    | true => exact absurd ho (not_isOpen_retryState row)
    | false =>
      rcases hs with hs | hs
      · exact Or.inr ⟨rfl, Or.inr ⟨rfl, hs⟩⟩
      · exact Or.inr ⟨rfl, Or.inl (Or.inl hs)⟩
  | unknown hs _ => exact Or.inr ⟨rfl, Or.inl hs⟩
  | lapseExecution hs => exact Or.inr ⟨rfl, Or.inl (Or.inl hs)⟩
  | notExecuted _ _ => exact absurd ho (not_isOpen_retryState row)
  | lapseClaim _ => exact absurd ho (not_isOpen_retryState row)
  | _ => rcases ho with ho | ho <;> cases ho

-- == intents

def Prepared (row : EffectRow) : Prop :=
  row.state.isOpen → row.executionIntentJson.isSome = true

theorem Transition.prepared (h : Transition H mv row row')
    (hmv : mv = .failed false → row.state = .claimed → row.executionIntentJson.isSome = true)
    (hp : Prepared row) : Prepared row' := by
  intro ho
  rcases h.isOpen ho with ⟨_, _, _, hi⟩ | ⟨hi, ho | ⟨hf, hs⟩⟩
  · exact hi
  · rw [hi]
    exact hp ho
  · rw [hi]
    exact hmv hf hs

theorem Lapse.prepared (h : Lapse H row row') (hp : Prepared row) : Prepared row' := by
  cases h with
  | none => exact hp
  | claim ht => exact ht.prepared nofun hp
  | execution ht => exact ht.prepared nofun hp

theorem RowWork.prepared {past : List Step} {db : Db} {j : Text} (hstrand : ¬ Strands w call)
    (hI : ∀ row, db.effect? j = some row → Prepared row)
    (h : RowWork H w past db j row' call r) : Prepared row' := by
  have hfail : ∀ {row : EffectRow} {c error},
      call = .markExecutionFailure c error false → db = w.view 0 →
      db.effect? j = some row → j = row.effectId →
      c.effectId = row.effectId.str → claimIdentity row c = true →
      row.state = .claimed → row.executionIntentJson.isSome = true := by
    rintro row c error rfl rfl hrow rfl hid hc hs
    cases hi : row.executionIntentJson with
    | some intent => rfl
    | none => exact absurd ⟨row, hrow, hid, hc, hs, Or.inl hi⟩ hstrand
  cases h with
  | same hrow _ => exact hI _ hrow
  | fresh hf _ _ =>
    obtain ⟨_, _, _, _, _, _, _, rfl, _⟩ := hf
    rintro (ho | ho) <;> cases ho
  | moved hview hrow hid hd ht =>
    refine ht.prepared (fun hmv hs => ?_) (hI _ hrow)
    subst hmv
    cases hd with
    | failed hcid hc _ => exact hfail rfl hview hrow hid hcid hc hs
  | reported hrow _ _ ht => exact ht.prepared nofun (hI _ hrow)
  | aborted hview hrow hid ha ht =>
    refine ht.prepared (fun hmv hs => ?_) (hI _ hrow)
    subst hmv
    cases ha with
    | fail hcid hc _ => exact hfail rfl hview hrow hid hcid hc hs
  | lapsed hrow hl _ => exact hl.prepared (hI _ hrow)
  | declined hrow hl hmv ht =>
    refine ht.prepared (fun hfailed => ?_) (hl.prepared (hI _ hrow))
    subst hfailed
    rcases hmv with h | h <;> cases h
  | granted _ hrow hl _ _ ht =>
    exact ht.prepared nofun (hl.prepared (hI _ hrow))

theorem run_prepared (calls : List Call)
    (hstrand : ∀ e ∈ trace H calls, ¬ Strands e.before e.input) :
    (run H calls).disk.Every fun db => ∀ j row, db.effect? j = some row → Prepared row :=
  run_rows (C := fun e => ¬ Strands e.before e.input) (R := fun _ _ row => Prepared row)
    (fun _ _ hs _ _ _ hI h => h.prepared hs hI) calls hstrand

-- == rollbacks

/-- An effect the ledger reads as open is open on file too, with the same
intent: a rollback does not take its recovery back. -/
def Anchored (w : World) : Prop :=
  ∀ j row, (w.view 0).effect? j = some row → row.state.isOpen →
    ∃ row', w.disk.file.effect? j = some row' ∧ row'.state.isOpen
      ∧ row'.executionIntentJson = row.executionIntentJson

theorem Settled.anchored (h : Settled w) : Anchored w := by
  intro j row hrow ho
  rw [show w.view 0 = w.disk.file from h] at hrow
  exact ⟨row, hrow, ho, rfl⟩

theorem Ran.anchored {w' : World} (h : Ran H w call r w')
    (hstrand : ¬ Strands w call) (hw : Anchored w) : Anchored w' := by
  have hsame : w'.disk = w.disk → Anchored w' := by
    intro hdisk
    unfold Anchored World.view at hw ⊢
    rw [hdisk]
    exact hw
  cases h with
  | raised hdisk _ => exact hsame hdisk
  | replayed _ _ hdisk => exact hsame hdisk
  | dropped hdisk _ => exact (settled_of_none hdisk).anchored
  | repeated hdisk => exact (settled_of_none hdisk).anchored
  | rereplayed _ _ hdisk => exact (settled_of_none hdisk).anchored
  | submitted _ _ hdisk => exact (settled_of_none hdisk).anchored
  | moved _ _ _ hdisk => exact (settled_of_none hdisk).anchored
  | reported _ _ _ hdisk => exact (settled_of_none hdisk).anchored
  | swept _ hdisk => exact (settled_of_none hdisk).anchored
  | unclaimed _ hdisk => exact (settled_of_none hdisk).anchored
  | claimed _ _ _ _ hdisk => exact (settled_of_none hdisk).anchored
  | stalled _ _ _ _ hdisk =>
    refine Settled.anchored ?_
    unfold Settled World.view
    rw [hdisk]
    exact Disk.view_mk_some _ _ _
  | @aborted _ row _ _ db _ hrow ha ht hdisk =>
    intro j row' hrow' ho
    have hview : w'.view 0 = db := by
      unfold World.view
      rw [hdisk]
      exact Disk.view_mk_some _ _ _
    rw [hview] at hrow'
    rw [hdisk]
    rcases ht.rowMoved.cases hrow' with ⟨rfl, row₁, hrow₁, ht⟩ | ⟨_, hsame⟩
    · obtain rfl : row = row₁ := Option.some.inj (hrow.symm.trans hrow₁)
      rcases ht.isOpen ho with ⟨_, _, hmv, _⟩ | ⟨hi, ho | ⟨hf, hs⟩⟩
      · cases ha <;> cases hmv
      · obtain ⟨row₂, hrow₂, ho₂, hi₂⟩ := hw _ _ hrow ho
        exact ⟨row₂, hrow₂, ho₂, hi₂.trans hi.symm⟩
      · cases ha with
        | fail hid hc he =>
          cases hf
          exact absurd ⟨row, hrow, hid, hc, hs, Or.inr he⟩ hstrand
        | _ => cases hf
    · exact hw j row' hsame ho

theorem run_anchored (calls : List Call)
    (hstrand : ∀ e ∈ trace H calls, ¬ Strands e.before e.input) : Anchored (run H calls) := by
  have hrun := Machine.invariant (step H) (C := fun e : Step => ¬ Strands e.before e.input)
    (I := fun w => w.disk.OwnedBy 0 ∧ Anchored w)
    World.init ⟨Disk.ownedBy_mk_none _ _, fun _ _ h => by cases h⟩
    (fun e hv hs hI => by
      have hran := step_ran hI.1 e.input (H := H)
      rw [show step H e.input e.before = (e.output, e.after) from hv] at hran
      exact ⟨hran.ownedBy hI.1, hran.anchored hs hI.2⟩)
    calls hstrand
  exact hrun.2

-- == the claim

/-- The call is accepted, answers with the state it leads to, and that is not
recovery. -/
def LeadsOut (H : Host) (w : World) (j : Text) (call : Call) : Prop :=
  ∃ s row, (step H call w).1 = .ok (.state s)
    ∧ ((step H call w).2.view 0).effect? j = some row ∧ row.state = s
    ∧ s ≠ .recoveryRequired

/-- Every effect in recovery has an intent, and the reconciliation by its
token that says it was not executed leads out of recovery, as does one that
says it was, with a result and a receipt that can be stored. -/
def NoneWedged (H : Host) (w : World) : Prop :=
  ∀ j row, (w.view 0).effect? j = some row → row.state = .recoveryRequired →
    ∃ intent, row.executionIntentJson = some intent
      ∧ (∀ result receipt, LeadsOut H w j (.reconcileExecution j.str
          intent.executionToken .notExecuted result receipt))
      ∧ ∀ result receipt, result.isNone = false → receipt.isNone = false →
          (Call.recordExecution j.str intent.executionToken result receipt).Serialises H →
          LeadsOut H w j (.reconcileExecution j.str intent.executionToken .executed result receipt)

/-- A transition whose payload serialises is committed, and the row reads
back as written. -/
theorem rewrite_commit_row {α : Type} (how : w.disk.OwnedBy 0)
    {id : Text} (hrow : (w.view 0).effect? id = some row)
    {f : Instant → EffectRow → EffectRow}
    {hf : ∀ t r, (f t r).effectId = r.effectId} {event : EffectEvent}
    {fromState toState : EffectState} {payload : Except PyErr PyVal}
    {doc : Json} (hd : payload >>= dumps = .ok doc) (a : α) :
    ∃ w' stamp, (rewrite H 0 id f hf event fromState toState payload
        >>= fun _ => commit 0 >>= fun _ => pure a) w = (.ok a, w')
      ∧ (w'.view 0).effect? id = some (f stamp row) := by
  refine ⟨_, H.clock w.ticks, rewrite_commit how hd a, ?_⟩
  unfold World.view
  rw [Disk.view_mk_none, Db.effect?_insertHistory, Db.effect?_updateEffect, if_pos rfl]
  rw [show w.disk.view 0 = w.view 0 from rfl, hrow]
  rfl

section Accepted

variable {w : World} {row : EffectRow} {intent : ExecutionIntent}

theorem open_checks (ho : row.state.isOpen) (hi : row.executionIntentJson = some intent) :
    ¬ (row.state ≠ .executing ∧ row.state ≠ .recoveryRequired)
      ∧ ¬ row.executionIntentJson.map ExecutionIntent.executionToken
        ≠ some intent.executionToken := by
  refine ⟨fun h => ho.elim h.1 h.2, ?_⟩
  rw [hi]
  exact fun h => h rfl

theorem notExecuted_leadsOut (how : w.disk.OwnedBy 0)
    (hrow : (w.view 0).effect? row.effectId = some row)
    (ho : row.state.isOpen) (hi : row.executionIntentJson = some intent) (result receipt : PyVal) :
    LeadsOut H w row.effectId (.reconcileExecution row.effectId.str
      intent.executionToken .notExecuted result receipt) := by
  obtain ⟨hstate, htoken⟩ := open_checks ho hi
  have hwrite : ∃ w' stamp, notExecutedRow H 0 row intent.executionToken w
        = (.ok (retryState row), w')
      ∧ (w'.view 0).effect? row.effectId
        = some (transitionColumns (retryState row) true true stamp row) :=
    rewrite_commit_row how hrow rfl _
  obtain ⟨w', stamp, hwrite, hrow'⟩ := hwrite
  have hrun : (reconcileExecution H 0 row.effectId.str intent.executionToken
      .notExecuted result receipt).run w = (.ok (retryState row), w') := by
    unfold reconcileExecution
    rw [Prog.run_bind_ok (read_row hrow), if_neg hstate, if_neg htoken,
      if_neg nofun, if_neg nofun, Prog.run_block]
    exact hwrite
  have hstep : step H (.reconcileExecution row.effectId.str
      intent.executionToken .notExecuted result receipt) w
        = (.ok (.state (retryState row)), w') := by
    unfold step Call.prog
    rw [Prog.run_map, hrun]
    rfl
  unfold LeadsOut
  rw [hstep]
  exact ⟨_, _, rfl, hrow', rfl, fun h => not_isOpen_retryState row (Or.inr h)⟩

theorem recordExecution_accepted (how : w.disk.OwnedBy 0)
    (hrow : (w.view 0).effect? row.effectId = some row)
    (ho : row.state.isOpen) (hi : row.executionIntentJson = some intent)
    {result receipt : PyVal} (hser : (Call.recordExecution row.effectId.str
      intent.executionToken result receipt).Serialises H) :
    ∃ w' row', (recordExecution H 0 row.effectId.str intent.executionToken
        result receipt).run w = (.ok .executed, w')
      ∧ (w'.view 0).effect? row.effectId = some row'
      ∧ row'.state = .executed := by
  obtain ⟨hstate, htoken⟩ := open_checks ho hi
  have hnot : row.state ≠ .executed := by
    intro h
    rw [h] at ho
    exact absurd ho (by decide)
  obtain ⟨⟨sha, hsha⟩, receiptDoc, hreceipt⟩ := hser
  obtain ⟨resultDoc, hresult⟩ := dumps_of_canonicalSha256 hsha
  have hstored : ∀ {v : PyVal} {doc : Json}, dumps v = .ok doc → roundTrip v = .ok (loads doc) := by
    intro v doc h
    unfold roundTrip
    rw [h]
    rfl
  let read : World := ⟨w.disk, w.ticks + 1, w.draws⟩
  have hread : (read.view 0).effect? row.effectId = some row := hrow
  let record : ExecutionRecord := ⟨intent.executionToken, loads resultDoc,
    loads receiptDoc, sha, H.clock w.ticks⟩
  have hwrite : ∃ w' stamp, recordRow H 0 row intent.executionToken result
        receipt w = (.ok .executed, w')
      ∧ (w'.view 0).effect? row.effectId = some { row with
        state := .executed
        executionResultJson := some record
        updatedAt := stamp } := by
    unfold recordRow
    rw [hsha, Block.bind_ok (liftPy_ok sha w), readClock_bind,
      hstored hresult, Block.bind_ok (liftPy_ok _ _), hstored hreceipt,
      Block.bind_ok (liftPy_ok _ _)]
    exact rewrite_commit_row (w := read) how hread rfl _
  obtain ⟨w', stamp, hwrite, hrow'⟩ := hwrite
  refine ⟨w', _, ?_, hrow', rfl⟩
  unfold recordExecution
  rw [Prog.run_bind_ok (read_row hrow), if_neg hnot, if_neg hstate, if_neg htoken, Prog.run_block]
  exact hwrite

/-- A row that is open on file too, with the same intent, is reconciled as
executed. -/
theorem executed_leadsOut (how : w.disk.OwnedBy 0)
    (hrow : (w.view 0).effect? row.effectId = some row)
    (ho : row.state.isOpen) (hi : row.executionIntentJson = some intent)
    (hanchor : Anchored w) {result receipt : PyVal}
    (hres : result.isNone = false) (hrec : receipt.isNone = false)
    (hser : (Call.recordExecution row.effectId.str intent.executionToken
      result receipt).Serialises H) :
    LeadsOut H w row.effectId (.reconcileExecution row.effectId.str
      intent.executionToken .executed result receipt) := by
  obtain ⟨hstate, htoken⟩ := open_checks ho hi
  -- what the rollback goes back to
  obtain ⟨old, hold, hoo, hoi⟩ := hanchor _ _ hrow ho
  have hid : old.effectId = row.effectId := Db.effectId_of_effect? hold
  let back : World := ⟨⟨w.disk.file, none⟩, w.ticks, w.draws⟩
  have hback : (back.view 0).effect? old.effectId = some old := by
    rw [hid]
    exact hold
  rw [← hid] at hser
  obtain ⟨w', row', hrecord, hrow', hs'⟩ := recordExecution_accepted
    (Disk.ownedBy_mk_none _ _) hback hoo (hoi.trans hi) hser
  rw [hid] at hrecord hrow'
  have hneither : ¬ (result.isNone || receipt.isNone) = true := by
    rw [hres, hrec]
    exact nofun
  have hrun : (reconcileExecution H 0 row.effectId.str intent.executionToken
      .executed result receipt).run w = (.ok .executed, w') := by
    unfold reconcileExecution
    rw [Prog.run_bind_ok (read_row hrow), if_neg hstate, if_neg htoken,
      if_neg nofun, if_pos rfl, if_neg hneither,
      Prog.run_bind_ok (by rw [Prog.run_block, rollback_apply how])]
    exact hrecord
  have hstep : step H (.reconcileExecution row.effectId.str
      intent.executionToken .executed result receipt) w = (.ok (.state .executed), w') := by
    unfold step Call.prog
    rw [Prog.run_map, hrun]
    rfl
  unfold LeadsOut
  rw [hstep]
  exact ⟨_, _, rfl, hrow', hs', nofun⟩

end Accepted

/-- No effect is wedged in recovery, in every run that strands none. -/
theorem none_wedged (H : Host) (calls : List Call)
    (hstrand : ∀ e ∈ trace H calls, ¬ Strands e.before e.input) : NoneWedged H (run H calls) := by
  intro j row hrow hs
  have ho : row.state.isOpen := Or.inr hs
  have hprepared := (run_prepared calls hstrand).view 0 j row hrow ho
  obtain ⟨intent, hi⟩ := Option.isSome_iff_exists.mp hprepared
  have hid : row.effectId = j := Db.effectId_of_effect? hrow
  subst hid
  refine ⟨intent, hi, fun result receipt => ?_, fun result receipt hr hp hser => ?_⟩
  · exact notExecuted_leadsOut (run_ownedBy calls) hrow ho hi result receipt
  · exact executed_leadsOut (run_ownedBy calls) hrow ho hi (run_anchored calls hstrand) hr hp hser

/-- The sample effect, whose lease lapses during its execution. -/
def Sample.overdue : List Call :=
  Sample.started ++ [ .recoverExpiredClaims (some (.aware (Sample.newYear + 3600000000)))]

theorem none_wedged_overdue : Sample.stateAfter Sample.overdue = some .recoveryRequired
      ∧ NoneWedged Sample.host (run Sample.host Sample.overdue) := by
  refine ⟨by decide +kernel, ?_⟩
  refine none_wedged Sample.host Sample.overdue fun e he => ?_
  have hinput := Machine.input_mem_of_mem_trace _ he
  simp only [Sample.overdue, Sample.started, List.cons_append,
    List.nil_append, List.mem_cons, List.not_mem_nil, or_false] at hinput
  rcases hinput with h | h | h | h | h <;> rw [h] <;> exact id

/-- The sample effect, claimed, and reported failed before it is begun. -/
def Sample.stranded : List Call :=
  Sample.started.take 3 ++ [ .markExecutionFailure (Sample.ticket 1 1) .none false]

/-- The effect is in recovery, and there is no token to reconcile it by. -/
theorem wedged_stranded : ¬ NoneWedged Sample.host (run Sample.host Sample.stranded) := by
  have hrun : (((run Sample.host Sample.stranded).view 0).effect? (Sample.host.uuid4 0)).map
        (fun row => (row.state, row.executionIntentJson.isSome))
      = some (.recoveryRequired, false) := by decide +kernel
  intro h
  obtain ⟨row, hrow, hcols⟩ := Option.map_eq_some_iff.mp hrun
  obtain ⟨hs, hnone⟩ := Prod.mk.inj hcols
  obtain ⟨intent, hi, _⟩ := h _ row hrow hs
  rw [hi] at hnone
  cases hnone

end Centinal26.Effects
