/-
Success of the automated engine.
-/
import Centinal26.Pipeline.Frames

namespace Centinal26.Pipeline

open Py Centinal26.Core Steps

variable {H : Host} {E : AutomatedEngine}

-- == gates

def outputPath (row : JobRow) : EvidencePath :=
  ⟨row.id, row.attempts, .verifiedOutput⟩

/-- The grant names the capability and ran at a reading taken between the two
worlds. -/
structure Permitted (H : Host) (E : AutomatedEngine) (w w' : World)
    (row : JobRow) (spec : CapabilitySpec) : Prop where
  registered : E.capabilities row.capability.str = some spec
  named : row.grant.capability = row.capability.str
  unexpired : ∃ t x, w.ticks ≤ t ∧ t < w'.ticks
    ∧ fromisoformat row.grant.expiresAt = .ok (.aware x) ∧ H.clock t < x

/-- The executor returned the output within its bound. -/
def Executed (w w' : World) (row : JobRow) (spec : CapabilitySpec) (output : PyVal) : Prop :=
  ∃ n elapsed, w.ticks ≤ n ∧ n < w'.ticks
    ∧ spec.executor n row.intent.payload = (.returned output, elapsed)
    ∧ spec.timeoutSeconds.num.lt elapsed.num = false

/-- The verifier returned true on the output. -/
def Approved (w w' : World) (row : JobRow) (spec : CapabilitySpec) (output : PyVal) : Prop :=
  ∃ n v, w.ticks ≤ n ∧ n < w'.ticks ∧ spec.verifier n row.intent.payload output = .returned v
    ∧ v.truthy = true

/-- The evidence for the attempt is filed, and passes its check. -/
def Filed (H : Host) (w' : World) (row : JobRow) : Prop :=
  ∃ file, w'.evidence.find? (outputPath row) = some file ∧ verifyDocument H file.body = .ok true

/-- Every gate of a job has been passed. -/
structure Gates (H : Host) (E : AutomatedEngine) (w w' : World)
    (row : JobRow) (spec : CapabilitySpec) (output : PyVal) : Prop where
  permitted : Permitted H E w w' row spec
  executed : Executed w w' row spec output
  approved : Approved w w' row spec output
  filed : Filed H w' row

/-- The canonical state of the capability is what the reducer made of the
state before and the output. -/
def Reduced (w w' : World) (spec : CapabilitySpec)
    (reducer : Nat → PyVal → PyVal → Outcome PyVal) (output : PyVal) : Prop :=
  ∃ k n updated v, encode spec.name = .ok k
    ∧ reducer n (PyVal.orEmpty (((w.disk.file.state? k).map StateRow.value).getD
        .none)) output = .returned updated
    ∧ roundTrip updated = .ok v ∧ v.eq updated = true
    ∧ (w'.disk.file.state? k).map StateRow.value = some v

/-- What success does to the canonical states. -/
def Committed (w w' : World) (spec : CapabilitySpec) (output : PyVal) : Prop :=
  match spec.reducer with
  | none => True
  | some reducer => Reduced w w' spec reducer output

def stateKey (spec : CapabilitySpec) : Option Text :=
  match spec.reducer with
  | none => none
  | some _ => (encode spec.name).toOption

/-- The job has been verified, and nothing else has. -/
structure Won (me : Nat) (w w' : World) (row : JobRow) (spec : CapabilitySpec)
    (output : PyVal) : Prop where
  calm : Calm me w'.disk
  files : Files w w'
  ticks : w.ticks ≤ w'.ticks
  job : ∃ result stamp, w'.disk.file.job? row.id
    = some (finishColumns .verified result (some (outputPath row)) stamp row)
  fresh : ∀ r, w.disk.file.job? row.id = some r → r.state ≠ .verified
  others : ∀ j r, j ≠ row.id → r.state = .verified →
    (w'.disk.file.job? j = some r ↔ w.disk.file.job? j = some r)
  states : ∀ k, stateKey spec ≠ some k → w'.disk.file.state? k = w.disk.file.state? k
  committed : Committed w w' spec output

/-- How a call of `run_once` ends. -/
inductive Ran (H : Host) (E : AutomatedEngine) (w w' : World) : Prop
  | kept (hf : Frame E.me none w w')
  | reached {row : JobRow} {spec : CapabilitySpec} {output : PyVal}
      (hg : Gates H E w w' row spec output) (hr : spec.reducer ≠ none)
      (hf : Frame E.me (stateKey spec) w w')
  | succeeded {row : JobRow} {spec : CapabilitySpec} {output : PyVal}
      (hg : Gates H E w w' row spec output)
      (hw : Won E.me w w' row spec output)

-- == later worlds

section Later

variable {w w₁ w₂ : World} {row : JobRow} {spec : CapabilitySpec}
  {output : PyVal}

theorem Permitted.later (h : Permitted H E w w₁ row spec)
    (ht : w₁.ticks ≤ w₂.ticks) : Permitted H E w w₂ row spec := by
  obtain ⟨hreg, hname, t, x, hle, hlt, hx⟩ := h
  exact ⟨hreg, hname, t, x, hle, Nat.lt_of_lt_of_le hlt ht, hx⟩

theorem Executed.later (h : Executed w w₁ row spec output)
    (ht : w₁.ticks ≤ w₂.ticks) : Executed w w₂ row spec output := by
  obtain ⟨n, elapsed, hle, hlt, hn⟩ := h
  exact ⟨n, elapsed, hle, Nat.lt_of_lt_of_le hlt ht, hn⟩

theorem Approved.later (h : Approved w w₁ row spec output)
    (ht : w₁.ticks ≤ w₂.ticks) : Approved w w₂ row spec output := by
  obtain ⟨n, v, hle, hlt, hn⟩ := h
  exact ⟨n, v, hle, Nat.lt_of_lt_of_le hlt ht, hn⟩

theorem Filed.later (h : Filed H w₁ row) (hf : Files w₁ w₂) : Filed H w₂ row := by
  obtain ⟨file, hfile, hv⟩ := h
  exact ⟨file, hf _ _ hfile, hv⟩

theorem Gates.later (h : Gates H E w w₁ row spec output)
    (ht : w₁.ticks ≤ w₂.ticks) (hf : Files w₁ w₂) : Gates H E w w₂ row spec output :=
  ⟨h.permitted.later ht, h.executed.later ht, h.approved.later ht, h.filed.later hf⟩

theorem Committed.later (h : Committed w w₁ spec output)
    (hs : ∀ k, w₂.disk.file.state? k = w₁.disk.file.state? k) : Committed w w₂ spec output := by
  unfold Committed at *
  split
  · trivial
  · next reducer heq =>
    rw [heq] at h
    obtain ⟨k, n, updated, v, hk, hn, hv, heq, hval⟩ := h
    refine ⟨k, n, updated, v, hk, hn, hv, heq, ?_⟩
    rw [hs k]
    exact hval

theorem Won.later (h : Won E.me w w₁ row spec output)
    (hf : Frame E.me none w₁ w₂) : Won E.me w w₂ row spec output := by
  have hstates : ∀ k, w₂.disk.file.state? k = w₁.disk.file.state? k :=
    fun k => hf.alike.states k nofun
  obtain ⟨result, stamp, hrow⟩ := h.job
  refine ⟨hf.calm, h.files.trans hf.files, le_trans h.ticks hf.ticks,
    ⟨result, stamp, (hf.alike.verified _ _ rfl).mpr hrow⟩, h.fresh,
    fun j r hj hr => ?_, fun k hk => (hstates k).trans (h.states k hk),
    h.committed.later hstates⟩
  exact (hf.alike.verified j r hr).trans (h.others j r hj hr)

theorem Ran.later (h : Ran H E w w₁) (hf : Frame E.me none w₁ w₂) : Ran H E w w₂ := by
  cases h with
  | kept h => exact .kept (h.trans hf)
  | reached hg hr h =>
    exact .reached (hg.later hf.ticks hf.files) hr (h.trans (hf.weaken _))
  | succeeded hg hw =>
    exact .succeeded (hg.later hf.ticks hf.files) (hw.later hf)

end Later

-- == stages

theorem permits_ends (grant : Grant) (capability : PyStr) (w : World) :
    (permits H grant capability).Ends w (fun b w' => Beyond w w' ∧ w.ticks < w'.ticks
        ∧ grant.permits capability (H.clock w.ticks) = .ok b)
      fun _ => Beyond w := by
  refine .block ⟨?_⟩
  rw [readClock_bind]
  unfold liftPy
  cases grant.permits capability (H.clock w.ticks) with
  | ok b => exact ⟨beyond_tick w, Nat.lt_succ_self _, rfl⟩
  | error e => exact beyond_tick w

theorem invoke_ends {α : Type} (f : Nat → α) (w : World) : (invoke f).Ends w
      (fun a w' => Beyond w w' ∧ w.ticks < w'.ticks ∧ a = f w.ticks)
      fun _ => Beyond w :=
  .block ⟨⟨beyond_tick w, Nat.lt_succ_self _, rfl⟩⟩

theorem execution_ends (spec : CapabilitySpec) (payload : PyVal) (w : World) :
    (execution spec payload).Ends w (fun ran w' => Beyond w w' ∧ ∀ output elapsed,
        ran = .ok (output, elapsed) → w.ticks < w'.ticks
          ∧ spec.executor w.ticks payload = (.returned output, elapsed)
          ∧ spec.timeoutSeconds.num.lt elapsed.num = false)
      fun _ => Beyond w := by
  unfold execution
  refine (invoke_ends _ w).bind fun ran w₁ h₁ => ?_
  obtain ⟨hb, ht, hran⟩ := h₁
  obtain ⟨outcome, elapsed⟩ := ran
  cases outcome with
  | returned output =>
    show Prog.Ends (if _ then _ else _) _ _ _
    split
    · exact .ret ⟨hb, fun _ _ h => by cases h⟩
    · next hlt =>
      refine .ret ⟨hb, fun o el h => ?_⟩
      cases h
      exact ⟨ht, hran.symm, Bool.eq_false_iff.mpr hlt⟩
  | raised name message => exact .ret ⟨hb, fun _ _ h => by cases h⟩
  | escaped => exact .raise hb

theorem verification_ends (spec : CapabilitySpec) (payload output : PyVal) (w : World) :
    (verification spec payload output).Ends w
      (fun ran w' => Beyond w w' ∧ (ran.1 = true → w.ticks < w'.ticks
        ∧ ∃ v, spec.verifier w.ticks payload output = .returned v ∧ v.truthy = true))
      fun _ => Beyond w := by
  unfold verification
  refine (invoke_ends _ w).bind fun verdict w₁ h₁ => ?_
  obtain ⟨hb, ht, hran⟩ := h₁
  cases verdict with
  | returned v => exact .ret ⟨hb, fun htrue => ⟨ht, v, hran.symm, htrue⟩⟩
  | raised name message => exact .ret ⟨hb, nofun⟩
  | escaped => exact .raise hb

theorem verifyEvidence_ends (path : EvidencePath) (w : World) : (verifyEvidence H path).Ends w
      (fun b w' => Beyond w w' ∧ (b = true → ∃ file, w'.evidence.find? path = some file
          ∧ verifyDocument H file.body = .ok true))
      fun _ => Beyond w := by
  refine .block ⟨?_⟩
  cases hfile : w.evidence.find? path with
  | none =>
    have hread : readEvidence path w = (.error (.py (.operationalError
        "No such file or directory")), w) := by
      unfold readEvidence
      rw [hfile]
    rw [Block.bind_error hread]
    exact .refl w
  | some file =>
    have hread : readEvidence path w = (.ok file.body, w) := by
      unfold readEvidence
      rw [hfile]
    rw [Block.bind_ok hread]
    unfold liftPy
    cases hv : verifyDocument H file.body with
    | error e => exact .refl w
    | ok b =>
      refine ⟨.refl w, fun hb => ⟨file, hfile, ?_⟩⟩
      rw [hv, hb]

-- == commit

/-- The job is on file as it was claimed, and running. -/
structure AtWork (me : Nat) (row : JobRow) (w : World) : Prop where
  calm : Calm me w.disk
  job : w.disk.file.job? row.id = some row
  running : row.state = .running

theorem AtWork.beyond {me : Nat} {row : JobRow} {w w' : World}
    (h : AtWork me row w) (hb : Beyond w w') : AtWork me row w' := by
  obtain ⟨hc, hj, hs⟩ := h
  refine ⟨?_, ?_, hs⟩
  · rw [hb.disk]
    exact hc
  · rw [hb.disk]
    exact hj

theorem AtWork.unverified {me : Nat} {row : JobRow} {w : World}
    (h : AtWork me row w) : Unverified me row.id w := by
  refine ⟨h.calm, fun r hr => ?_⟩
  rw [h.job] at hr
  cases hr
  rw [h.running]
  intro heq
  cases heq

section Commit

variable {w : World} {row : JobRow} {spec : CapabilitySpec}
  {reducer : Nat → PyVal → PyVal → Outcome PyVal} {output : PyVal}

theorem reduceState_ends (h : AtWork E.me row w)
    (hr : spec.reducer = some reducer) (path : EvidencePath) (recoveryTest : Bool) :
    (reduceState H E row spec reducer output path recoveryTest).Ends w
      (fun version w' => Frame E.me (stateKey spec) w w' ∧ (version ≠ none → AtWork E.me row w'
          ∧ Reduced w w' spec reducer output))
      fun _ => Frame E.me (stateKey spec) w := by
  unfold reduceState
  have hkey : stateKey spec = (encode spec.name).toOption := by
    unfold stateKey
    rw [hr]
  refine ((getState_ends h.calm spec.name).imp (fun _ _ h => h)
    fun _ w' hw => (by rw [hw]; exact .refl h.calm _)).bind fun found w₁ h₁ => ?_
  obtain ⟨rfl, k, hk, rfl⟩ := h₁
  rw [hk] at hkey
  refine ((invoke_ends _ w₁).imp (fun _ _ h => h)
    fun _ w' hb => hb.frame h.calm _).bind fun outcome w₂ h₂ => ?_
  obtain ⟨hb, _, hoc⟩ := h₂
  have h₂ := h.beyond hb
  have hf₂ : Frame E.me (stateKey spec) w₁ w₂ := hb.frame h.calm _
  cases outcome with
  | raised name message => exact .raise hf₂
  | escaped => exact .raise hf₂
  | returned updated =>
    refine ((setState_ends h₂.calm spec.name updated).imp (fun _ _ h => h)
      fun _ w' hw => hw ▸ hf₂).bind fun version w₃ h₃ => ?_
    obtain ⟨k', hk', hset⟩ := h₃
    obtain rfl : k = k' := Except.ok.inj (hk.symm.trans hk')
    have hf₃ : Frame E.me (stateKey spec) w₁ w₃ := by
      have hset' : Frame E.me (stateKey spec) w₂ w₃ := by
        rw [hkey]
        exact hset.frame
      exact hf₂.trans hset'
    refine ((getState_ends hset.frame.calm spec.name).imp (fun _ _ h => h)
      fun _ w' hw => hw ▸ hf₃).bind fun observed w₄ h₄ => ?_
    obtain ⟨rfl, k'', hk'', rfl⟩ := h₄
    obtain rfl : k = k'' := Except.ok.inj (hk.symm.trans hk'')
    have hwork : AtWork E.me row w₄ :=
      ⟨hset.frame.calm, (hset.jobs row.id).trans h₂.job, h.running⟩
    obtain ⟨v, hv, hval⟩ := hset.value
    rw [hval]
    split
    · next heq =>
      refine .ret ⟨hf₃, fun _ => ⟨hwork, k, w₁.ticks, updated, v, hk, hoc.symm, hv, heq, hval⟩⟩
    · refine Prog.Ends.bind (Q := fun _ w' => Frame E.me (stateKey spec) w₁ w')
        ((divergeState_framed hwork.unverified spec path updated _ recoveryTest).imp
          (fun _ _ hd => hf₃.trans (hd.weaken _))
          fun _ _ hd => hf₃.trans (hd.weaken _)) fun _ w' hw' => ?_
      exact .ret ⟨hw', fun h => absurd rfl h⟩

theorem commitState_ends (h : AtWork E.me row w)
    (hr : spec.reducer = some reducer) (path : EvidencePath) (recoveryTest : Bool) :
    (commitState H E row spec reducer output path recoveryTest).Ends w
      (fun version w' => Frame E.me (stateKey spec) w w' ∧ (version ≠ none → AtWork E.me row w'
          ∧ Reduced w w' spec reducer output))
      fun _ => Frame E.me (stateKey spec) w := by
  unfold commitState
  refine (reduceState_ends h hr path recoveryTest).tryCatch fun e w₁ hf => ?_
  have hfail : ∀ message : PyStr,
      (failStateUpdate H E row spec path message recoveryTest >>= fun _ =>
          pure none : RProg (Option Nat)).Ends w₁
        (fun version w' => Frame E.me (stateKey spec) w w' ∧ (version ≠ none → AtWork E.me row w'
            ∧ Reduced w w' spec reducer output))
        fun _ => Frame E.me (stateKey spec) w := fun message => by
    refine Prog.Ends.bind (Q := fun _ w' => Frame E.me (stateKey spec) w w')
      ((failStateUpdate_framed (h.unverified.frame hf) spec path message recoveryTest).imp
        (fun _ _ hd => hf.trans (hd.weaken _))
        fun _ _ hd => hf.trans (hd.weaken _)) fun _ w' hw' => ?_
    exact .ret ⟨hw', fun h => absurd rfl h⟩
  cases e with
  | escaped => exact .raise hf
  | py e => exact hfail _
  | idempotencyConflict message => exact hfail _
  | raised name message => exact hfail _

end Commit

-- == run_once

section RunOnce

variable {w₀ w : World} {row : JobRow} {spec : CapabilitySpec}
  {output : PyVal}

/-- The last exit: the job is verified once its row is written, and whatever
comes after that. -/
theorem succeed_ends (hfresh : ∀ r, w₀.disk.file.job? row.id = some r → r.state ≠ .verified)
    (hwork : AtWork E.me row w) (hg : Gates H E w₀ w row spec output) (hfiles : Files w₀ w)
    (hticks : w₀.ticks ≤ w.ticks) (halike : Alike (stateKey spec) w₀.disk.file w.disk.file)
    (hcommit : Committed w₀ w spec output) (hkept : ∀ w', Frame E.me none w w' → Ran H E w₀ w')
    (version : Option Nat) (recoveryTest : Bool) :
    (succeed H E row spec output (outputPath row) version recoveryTest).Ends w
      (fun _ => Ran H E w₀) fun _ => Ran H E w₀ := by
  unfold succeed
  refine ((outside_evidenceSha _ w).imp (fun _ _ hb => hb)
    fun _ w' hb => hkept w' (hb.frame hwork.calm none)).bind
    fun sha w₁ hb => ?_
  have hwork₁ := hwork.beyond hb
  refine ((finish_ends hwork₁.calm row.id .verified _ _).imp (fun _ _ h => h)
    fun _ w' hw' => ?_).bind fun _ w₂ h₂ => ?_
  · rw [hw']
    exact hkept w₁ (hb.frame hwork.calm none)
  · obtain ⟨result, stamp, rfl⟩ := h₂
    -- the job is verified now
    let w₂ : World := { w₁ with
      disk := ⟨w₁.disk.file.updateJob row.id
        (finishColumns .verified result (some (outputPath row)) stamp)
        (fun _ => rfl), none⟩
      ticks := w₁.ticks + 1 }
    have hfile : ∀ j, w₂.disk.file.job? j = if j = row.id
        then some (finishColumns .verified result (some (outputPath row)) stamp row)
        else w.disk.file.job? j := fun j => by
      refine (Db.job?_updateJob w₁.disk.file row.id (finishColumns .verified
        result (some (outputPath row)) stamp) (fun _ => rfl) j).trans ?_
      rw [hwork₁.job, hb.disk]
      rfl
    have hstates : ∀ k, w₂.disk.file.state? k = w.disk.file.state? k :=
      fun k => by
        show w₁.disk.file.state? k = _
        rw [hb.disk]
    have hticks₂ : w.ticks ≤ w₂.ticks := Nat.le_succ_of_le hb.ticks
    have hwon : Won E.me w₀ w₂ row spec output := by
      refine ⟨calm_mk_none _, hfiles.trans hb.files, le_trans hticks hticks₂,
        ⟨result, stamp, ?_⟩, hfresh, fun j r hj hr => ?_,
        fun k hk => (hstates k).trans (halike.states k hk),
        hcommit.later hstates⟩
      · rw [hfile, if_pos rfl]
      · rw [hfile, if_neg hj]
        exact halike.verified j r hr
    have hran : Ran H E w₀ w₂ :=
      .succeeded (hg.later hticks₂ hb.files) hwon
    refine ((outside_auditAppend _ _).framed (calm_mk_none _) none).imp
      (fun _ _ h => h) (fun _ _ h => hran.later h) |>.bind fun _ w₃ h₃ => ?_
    refine (recorded_framed (E := E) h₃.calm _ _ _ _ _ (some row.id)).imp
      (fun _ _ h => ?_) fun _ _ h => ?_
    · exact hran.later (h₃.trans h)
    · exact hran.later (h₃.trans h)

theorem settleOutput_ends (hf : Frame E.me none w₀ w)
    (hwork : AtWork E.me row w) (hp : Permitted H E w₀ w row spec)
    (hx : Executed w₀ w row spec output) (elapsed : PyFloat) (recoveryTest : Bool) :
    (settleOutput H E row spec output elapsed recoveryTest).Ends w
      (fun _ => Ran H E w₀) fun _ => Ran H E w₀ := by
  unfold settleOutput
  refine ((verification_ends spec row.intent.payload output w).imp (fun _ _ h => h)
    fun _ w' hb => .kept (hf.trans (hb.frame hwork.calm none))).bind
    fun ran w₁ h₁ => ?_
  obtain ⟨hb₁, hverified⟩ := h₁
  obtain ⟨verified, error⟩ := ran
  have hf₁ := hf.trans (hb₁.frame hwork.calm none)
  refine ((writeEvidence_ends ..).imp (fun _ _ h => h)
    fun _ w' hb => .kept (hf₁.trans (hb.frame hf₁.calm none))).bind
    fun path w₂ h₂ => ?_
  obtain ⟨hpath, hb₂⟩ := h₂
  have hf₂ := hf₁.trans (hb₂.frame hf₁.calm none)
  refine ((verifyEvidence_ends path w₂).imp (fun _ _ h => h)
    fun _ w' hb => .kept (hf₂.trans (hb.frame hf₂.calm none))).bind
    fun complete w₃ h₃ => ?_
  obtain ⟨hb₃, hcomplete⟩ := h₃
  have hb := (hb₁.trans hb₂).trans hb₃
  have hf₃ := hf₂.trans (hb₃.frame hf₂.calm none)
  have hwork₃ := hwork.beyond hb
  have hfresh : ∀ r, w₀.disk.file.job? row.id = some r → r.state ≠ .verified := fun r hr hs =>
    hwork.unverified.job r ((hf.alike.verified _ r hs).mpr hr) hs
  have hfail : ∀ v c, (failVerification H E row spec v c error path
      recoveryTest).Ends w₃ (fun _ => Ran H E w₀) fun _ => Ran H E w₀ :=
    fun v c => (failVerification_framed hwork₃.unverified spec v c error path
      recoveryTest).imp (fun _ _ h => .kept (hf₃.trans h))
      fun _ _ h => .kept (hf₃.trans h)
  cases verified with
  | false => exact hfail _ _
  | true =>
    cases complete with
    | false => exact hfail _ _
    | true =>
      obtain ⟨hlt, v, hv, htrue⟩ := hverified rfl
      have hpath' : path = outputPath row := hpath
      subst hpath'
      have hgates : Gates H E w₀ w₃ row spec output := by
        refine ⟨hp.later hb.ticks, hx.later hb.ticks, ⟨w.ticks, v, hf.ticks, ?_, hv, htrue⟩, ?_⟩
        · exact Nat.lt_of_lt_of_le hlt (hb₂.trans hb₃).ticks
        · obtain ⟨file, hfile, hdoc⟩ := hcomplete rfl
          exact ⟨file, hfile, hdoc⟩
      show (match spec.reducer with
        | none => succeed H E row spec output (outputPath row) none recoveryTest
        | some reducer => _ : RProg (Option Text)).Ends w₃ _ _
      cases hr : spec.reducer with
      | none =>
        refine succeed_ends hfresh hwork₃ hgates hf₃.files hf₃.ticks
          (hf₃.alike.weaken _) ?_ (fun w' h => .kept (hf₃.trans h)) none
          recoveryTest
        unfold Committed
        rw [hr]
        trivial
      | some reducer =>
        have hne : spec.reducer ≠ none := by
          rw [hr]
          intro h
          cases h
        have hreach : ∀ w', Frame E.me (stateKey spec) w₃ w' → Ran H E w₀ w' := fun w' h =>
          .reached (hgates.later h.ticks h.files) hne ((hf₃.weaken _).trans h)
        refine ((commitState_ends hwork₃ hr (outputPath row) recoveryTest).imp (fun _ _ h => h)
          fun _ w' h => hreach w' h).bind fun version w₄ h₄ => ?_
        obtain ⟨hf₄, hdone⟩ := h₄
        cases version with
        | none => exact .ret (hreach w₄ hf₄)
        | some version =>
          obtain ⟨hwork₄, k, n, updated, v, hk, hn, hv, heq, hval⟩ :=
            hdone nofun
          have hf' := (hf₃.weaken (stateKey spec)).trans hf₄
          refine succeed_ends hfresh hwork₄ (hgates.later hf₄.ticks hf₄.files) hf'.files hf'.ticks
            hf'.alike ?_
            (fun w' h => hreach w' (hf₄.trans (h.weaken _)))
            (some version) recoveryTest
          unfold Committed
          rw [hr]
          refine ⟨k, n, updated, v, hk, ?_, hv, heq, hval⟩
          rw [← hf₃.alike.states k nofun]
          exact hn

theorem runOnce_ends (hc : Calm E.me w₀.disk) (recoveryTest : Bool) :
    (runOnce H E recoveryTest).Ends w₀ (fun _ => Ran H E w₀) fun _ => Ran H E w₀ := by
  unfold runOnce
  refine ((claim_ends hc 60).imp (fun _ _ h => h) fun _ _ h => .kept h).bind fun picked w₁ h₁ => ?_
  obtain ⟨hf₁, hpicked⟩ := h₁
  cases picked with
  | none => exact .ret (.kept hf₁)
  | some row =>
    obtain ⟨hjob, hrunning⟩ := hpicked row rfl
    have hwork₁ : AtWork E.me row w₁ := ⟨hf₁.calm, hjob, hrunning⟩
    refine ((outside_auditAppend _ _ w₁).imp (fun _ _ h => h)
      fun _ _ hb => .kept (hf₁.trans (hb.frame hf₁.calm none))).bind
      fun _ w₂ hb₂ => ?_
    have hf₂ := hf₁.trans (hb₂.frame hf₁.calm none)
    have hwork₂ := hwork₁.beyond hb₂
    have hreject : ∀ w, Frame E.me none w₀ w → AtWork E.me row w →
        (reject H E row recoveryTest).Ends w (fun _ => Ran H E w₀)
          fun _ => Ran H E w₀ := fun w hf hw =>
      (reject_framed hw.unverified recoveryTest).imp
        (fun _ _ h => .kept (hf.trans h)) fun _ _ h => .kept (hf.trans h)
    cases hspec : E.capabilities row.capability.str with
    | none => exact hreject w₂ hf₂ hwork₂
    | some spec =>
      refine ((permits_ends row.grant row.capability.str w₂).imp (fun _ _ h => h)
        fun _ _ hb => .kept (hf₂.trans (hb.frame hf₂.calm none))).bind
        fun permitted w₃ h₃ => ?_
      obtain ⟨hb₃, hlt, hpermits⟩ := h₃
      have hf₃ := hf₂.trans (hb₃.frame hf₂.calm none)
      have hwork₃ := hwork₂.beyond hb₃
      cases permitted with
      | false => exact hreject w₃ hf₃ hwork₃
      | true =>
        obtain ⟨hname, x, hx, hnow⟩ := Grant.permits_eq_true hpermits
        have hp : Permitted H E w₀ w₃ row spec :=
          ⟨hspec, hname, w₂.ticks, x, hf₂.ticks, hlt, hx, hnow⟩
        refine ((execution_ends spec row.intent.payload w₃).imp (fun _ _ h => h)
          fun _ _ hb => .kept (hf₃.trans (hb.frame hf₃.calm none))).bind
          fun ran w₄ h₄ => ?_
        obtain ⟨hb₄, hran⟩ := h₄
        have hf₄ := hf₃.trans (hb₄.frame hf₃.calm none)
        have hwork₄ := hwork₃.beyond hb₄
        cases ran with
        | error e =>
          obtain ⟨name, message⟩ := e
          exact (recordFailure_framed hwork₄.unverified spec _
            recoveryTest).imp (fun _ _ h => .kept (hf₄.trans h))
            fun _ _ h => .kept (hf₄.trans h)
        | ok result =>
          obtain ⟨output, elapsed⟩ := result
          obtain ⟨hlt₄, hexec, hbound⟩ := hran output elapsed rfl
          exact settleOutput_ends hf₄ hwork₄ (hp.later hb₄.ticks)
            ⟨w₃.ticks, elapsed, hf₃.ticks, hlt₄, hexec, hbound⟩ elapsed
            recoveryTest

end RunOnce

end Centinal26.Pipeline
