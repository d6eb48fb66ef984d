/-
Which failed calls leave a trace.
-/
import Centinal26.Effects.Outcome

namespace Centinal26.Effects

open Py Steps

variable {H : Host}

/-- The calls that, if they fail, fail too late. -/
def Leaves (H : Host) (w : World) : Call → Prop
  | .markExecutionFailure c error _ =>
    ∃ row, (w.view 0).effect? row.effectId = some row
      ∧ c.effectId = row.effectId.str ∧ claimIdentity row c = true
      ∧ (row.state = .claimed ∨ row.state = .executing)
      ∧ ∃ e, dumps error = .error e
  | .publish id publication =>
    ∃ row, (w.view 0).effect? row.effectId = some row
      ∧ id = row.effectId.str ∧ row.state = .verified
      ∧ Unhashable H publication
  | .acknowledge id acknowledgement =>
    ∃ row, (w.view 0).effect? row.effectId = some row
      ∧ id = row.effectId.str ∧ row.state = .published
      ∧ Unhashable H acknowledgement
  | .claim worker lease =>
    isBlank worker = false ∧ 1 ≤ lease ∧ lapsedRows (H.clock w.ticks) (w.view 0) ≠ []
  | _ => False

/-- What anybody reads, or will read after a rollback, is as it was. -/
def Untouched (w w' : World) : Prop :=
  w'.view 0 = w.view 0 ∧ w'.disk.file = w.disk.file

variable {w w' : World} {call : Call}

theorem Untouched.settled (h : Untouched w w') (hs : Settled w) : Settled w' :=
  (h.1.trans hs).trans h.2.symm

-- == calls that are in time

variable {row : EffectRow} {e : LedgerError}

theorem Aborts.leaves {mv : Move}
    {db : Db} (ha : Aborts H row call mv) (hrow : (w.view 0).effect? row.effectId = some row)
    (ht : Touched H row.effectId mv (w.view 0) db) : Leaves H w call := by
  obtain ⟨row₁, _, hrow₁, ht, _⟩ := ht.rowMoved
  obtain rfl : row = row₁ := Option.some.inj (hrow.symm.trans hrow₁)
  cases ha with
  | fail hid hc he =>
    cases ht with
    | fail hs => exact ⟨row, hrow, hid, hc, hs, he⟩
  | publish hid hu =>
    cases ht with
    | publish hs => exact ⟨row, hrow, hid, hs, hu⟩
  | acknowledge hid hu =>
    cases ht with
    | acknowledge hs => exact ⟨row, hrow, hid, hs, hu⟩

theorem Ran.untouched (h : Ran H w call (.error e) w') (hs : Settled w)
    (hin : ¬ Leaves H w call) : Untouched w w' := by
  cases h with
  | raised hdisk _ =>
    unfold Untouched World.view
    rw [hdisk]
    exact ⟨rfl, rfl⟩
  | dropped hdisk _ =>
    unfold Untouched World.view
    rw [hdisk]
    exact ⟨hs.symm, rfl⟩
  | aborted hrow ha ht _ => exact absurd (ha.leaves hrow ht) hin
  | stalled hb hl _ hn hdisk =>
    have hnone : lapsedRows (H.clock w.ticks) (w.view 0) = [] := by
      by_contra hsome
      exact hin ⟨hb, hl, hsome⟩
    unfold Untouched World.view
    rw [hdisk, hn.mpr hnone]
    exact ⟨Disk.view_mk_some _ _ _, hs⟩

-- == calls that are late

/-- An `UPDATE` that stays pending and changes the state of its row is seen by
the next read. -/
theorem rewrite_abort_ne {α : Type} (how : w.disk.OwnedBy 0)
    (hrow : (w.view 0).effect? row.effectId = some row)
    {f : Instant → EffectRow → EffectRow}
    {hf : ∀ t r, (f t r).effectId = r.effectId} {event : EffectEvent}
    {fromState toState : EffectState} {payload : Except PyErr PyVal}
    (hd : ∃ e, payload >>= dumps = .error e)
    (hto : ∀ stamp, (f stamp row).state ≠ row.state) (a : α) :
    ((rewrite H 0 row.effectId f hf event fromState toState payload
      >>= fun _ => commit 0 >>= fun _ => pure a) w).2.view 0 ≠ w.view 0 := by
  obtain ⟨e, hd⟩ := hd
  rw [rewrite_abort how hd]
  unfold World.view
  rw [Disk.view_write, show w.disk.view 0 = w.view 0 from rfl]
  intro heq
  have hsame := congrArg (fun db => db.effect? row.effectId) heq
  simp only [Db.effect?_updateEffect, if_pos, hrow] at hsame
  exact hto _ (congrArg EffectRow.state (Option.some.inj hsame))

theorem late_touches (how : w.disk.OwnedBy 0) (herr : (step H call w).1 = .error e)
    (hl : Leaves H w call) : (step H call w).2.view 0 ≠ w.view 0 := by
  cases call with
  | markExecutionFailure c error n =>
    obtain ⟨row, hrow, hid, hc, hs, he⟩ := hl
    have hstate : ¬ (row.state ≠ .claimed ∧ row.state ≠ .executing) :=
      fun h => hs.elim h.1 h.2
    have hto : failureState row n ≠ row.state := by
      intro h
      have hkeep : failureState row n = .claimed ∨ failureState row n = .executing := h ▸ hs
      unfold failureState at hkeep
      cases n with
      | false => rcases hkeep with h | h <;> cases h
      | true =>
        simp only [if_true] at hkeep
        rcases retryState_cases row with hr | hr <;> rw [hr] at hkeep <;>
          rcases hkeep with h | h <;> cases h
    unfold step Call.prog markExecutionFailure
    rw [Prog.run_map, hid, Prog.run_bind_ok (read_row hrow),
      if_neg (not_not.mpr hc), if_neg hstate, Prog.run_block]
    exact rewrite_abort_ne how hrow ((dumps_failure error n).mpr he) (fun _ => hto) _
  | publish id publication =>
    obtain ⟨row, hrow, rfl, hs, ⟨stored, hst⟩, he⟩ := hl
    unfold step Call.prog publish
    rw [Prog.run_map, Prog.run_bind_ok (read_row hrow),
      if_neg (by rw [hs]; nofun), if_neg (not_not.mpr hs), Prog.run_block]
    unfold publishRow
    rw [hst, Block.bind_ok (liftPy_ok stored w)]
    refine rewrite_abort_ne how hrow ((dumps_digest _ _).mpr he) (fun _ => ?_) _
    rw [hs]
    nofun
  | acknowledge id acknowledgement =>
    obtain ⟨row, hrow, rfl, hs, ⟨stored, hst⟩, he⟩ := hl
    unfold step Call.prog acknowledge
    rw [Prog.run_map, Prog.run_bind_ok (read_row hrow),
      if_neg (by rw [hs]; nofun), if_neg (not_not.mpr hs), Prog.run_block]
    unfold acknowledgeRow
    rw [hst, Block.bind_ok (liftPy_ok stored w)]
    refine rewrite_abort_ne how hrow ((dumps_digest _ _).mpr he) (fun _ => ?_) _
    rw [hs]
    nofun
  | claim worker lease =>
    obtain ⟨hb, hlease, hlapsed⟩ := hl
    have hran := step_ran how (.claim worker lease) (H := H)
    generalize step H (.claim worker lease) w = res at hran herr ⊢
    obtain ⟨r, w'⟩ := res
    replace herr : r = .error e := herr
    subst herr
    cases hran with
    | raised _ hclaim =>
      rcases hclaim worker lease rfl with h | h
      · rw [hb] at h
        cases h
      · omega
    | dropped _ hclaim => cases hclaim
    | aborted _ ha _ _ => cases ha
    | stalled _ _ _ hn hdisk =>
      intro heq
      unfold World.view at heq
      rw [hdisk] at heq
      exact hlapsed (hn.mp ((Disk.view_mk_some _ _ _).symm.trans heq))
  | _ => exact hl.elim

-- == runs

theorem Ran.settled_of_ok {reply : Reply}
    (h : Ran H w call (.ok reply) w') (hs : Settled w) : Settled w' := by
  cases h with
  | replayed _ _ hdisk =>
    unfold Settled World.view at hs ⊢
    rw [hdisk]
    exact hs
  | repeated hdisk => exact settled_of_none hdisk
  | rereplayed _ _ hdisk => exact settled_of_none hdisk
  | submitted _ _ hdisk => exact settled_of_none hdisk
  | moved _ _ _ hdisk => exact settled_of_none hdisk
  | reported _ _ _ hdisk => exact settled_of_none hdisk
  | swept _ hdisk => exact settled_of_none hdisk
  | unclaimed _ hdisk => exact settled_of_none hdisk
  | claimed _ _ _ _ hdisk => exact settled_of_none hdisk

def Raises (e : Step) : Prop := ∃ err, e.output = .error err

/-- No failed call of the run left a trace. -/
def NoTrace (past : List Step) : Prop :=
  ∀ e ∈ past, Raises e → Untouched e.before e.after

/-- A step of a run from where nothing is pending: if it left no trace, it was
not late and nothing is pending after it. -/
theorem step_settled (how : w.disk.OwnedBy 0) (hs : Settled w) (call : Call)
    (hin : (∃ e, (step H call w).1 = .error e) → ¬ Leaves H w call) : Settled (step H call w).2
      ∧ ((∃ e, (step H call w).1 = .error e) → Untouched w (step H call w).2) := by
  have hran := step_ran how call (H := H)
  generalize step H call w = res at hran hin ⊢
  obtain ⟨r, w'⟩ := res
  cases r with
  | ok reply => exact ⟨hran.settled_of_ok hs, fun ⟨_, h⟩ => by cases h⟩
  | error e =>
    have huntouched := hran.untouched hs (hin ⟨e, rfl⟩)
    exact ⟨huntouched.settled hs, fun _ => huntouched⟩

theorem run_settled_of_in_time (calls : List Call)
    (hin : ∀ e ∈ trace H calls, Raises e → ¬ Leaves H e.before e.input) :
    Settled (run H calls) := by
  have hrun := Machine.invariant (step H)
    (C := fun e : Step => Raises e → ¬ Leaves H e.before e.input)
    (I := fun w => w.disk.OwnedBy 0 ∧ Settled w)
    World.init ⟨Disk.ownedBy_mk_none _ _, rfl⟩
    (fun e hv hin hI => by
      have hran := step_ran hI.1 e.input (H := H)
      have hsettled := step_settled hI.1 hI.2 e.input (H := H)
      rw [show step H e.input e.before = (e.output, e.after) from hv] at hran hsettled
      exact ⟨hran.ownedBy hI.1, (hsettled hin).1⟩)
    calls hin
  exact hrun.2

/-- A run leaves no trace of its failed calls exactly if none of them is one
that fails too late. -/
theorem no_trace_iff (H : Host) (calls : List Call) : NoTrace (trace H calls) ↔
      ∀ e ∈ trace H calls, Raises e → ¬ Leaves H e.before e.input := by
  constructor
  · rintro hclean e he ⟨err, herr⟩ hl
    obtain ⟨pre, post, hcut⟩ := List.append_of_mem he
    obtain ⟨before, call, _, _, _, rfl, _⟩ := Machine.trace_split _ hcut
    exact late_touches (run_ownedBy before) herr hl (hclean _ he ⟨err, herr⟩).1
  · intro hin e he hr
    obtain ⟨pre, post, hcut⟩ := List.append_of_mem he
    obtain ⟨before, call, _, _, hpre, rfl, _⟩ := Machine.trace_split _ hcut
    have hsettled := run_settled_of_in_time before fun e' he' =>
      hin e' (by rw [hcut, hpre]; exact List.mem_append_left _ he')
    exact (step_settled (run_ownedBy before) hsettled call fun h => hin _ he h).2 hr

/-- The sample effect, verified, and published with half of a surrogate pair:
`json` writes it, the digest cannot encode it. -/
def Sample.halfPublished : List Call :=
  Sample.finished.take 6 ++ [.publish Sample.effectId (.dict [item "url" (.str [0xD83D])])]

/-- The publication fails, and the effect reads as published. -/
theorem trace_halfPublished : ¬ NoTrace (trace Sample.host Sample.halfPublished) := by
  let failed := Machine.entry (step Sample.host)
    (.publish Sample.effectId (.dict [item "url" (.str [0xD83D])]))
    (run Sample.host (Sample.finished.take 6))
  have hrun : failed.output.toOption = none
      ∧ ((failed.before.view 0).effect? (Sample.host.uuid4 0)).map EffectRow.state = some .verified
      ∧ ((failed.after.view 0).effect? (Sample.host.uuid4 0)).map
        EffectRow.state = some .published := by decide +kernel
  obtain ⟨hraises, hbefore, hafter⟩ := hrun
  have hraises : Raises failed := by
    cases hout : failed.output with
    | error e => exact ⟨e, hout⟩
    | ok reply =>
      rw [hout] at hraises
      cases hraises
  have hmem : failed ∈ trace Sample.host Sample.halfPublished :=
    mem_trace_concat _ _
  intro h
  rw [(h failed hmem hraises).1, hbefore] at hafter
  cases hafter

end Centinal26.Effects
