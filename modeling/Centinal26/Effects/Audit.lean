/-
The history replays the state: in every run whose arguments serialise, the
history rows of an effect lead from nothing to the state it is in, and the
hash chain over all of them verifies.
-/
import Centinal26.Lib.Chain
import Centinal26.Effects.Outcome

namespace Centinal26.Effects

open Py Steps

variable {H : Host}

-- == the hash chain

/-- The history is a chain of digests from the genesis hash on. -/
structure Chained (H : Host) (history : List HistoryRow) : Prop where
  digests : ∀ h ∈ history, h.hash = h.digest H
  linked : ∃ last, List.Walk HistoryRow.previousHash HistoryRow.hash genesis history last

theorem auditFrom_eq_true {previous last : Text} {history : List HistoryRow}
    (hd : ∀ h ∈ history, h.hash = h.digest H)
    (hl : List.Walk HistoryRow.previousHash HistoryRow.hash previous history
      last) : auditFrom H previous history = .ok true := by
  induction history generalizing previous with
  | nil => rfl
  | cons h rest ih =>
    have hh := hd h (List.mem_cons_self ..)
    unfold auditFrom
    rw [if_neg (not_not.mpr hl.1), canonicalSha256_record, hh]
    show (if h.digest H ≠ h.digest H then _ else _) = _
    rw [if_neg (not_not.mpr rfl), ← hh]
    exact ih (fun g hg => hd g (List.mem_cons_of_mem _ hg)) hl.2

variable {db db' : Db} {row : HistoryRow}

theorem Chained.verifies (h : Chained H db.history) : verifyAuditChain H db = .ok true := by
  obtain ⟨last, hl⟩ := h.linked
  exact auditFrom_eq_true h.digests hl

theorem Chained.append (h : Chained H db.history)
    (hprev : row.previousHash = db.lastHash) (hhash : row.hash = row.digest H) :
    Chained H (db.history ++ [row]) := by
  obtain ⟨last, hl⟩ := h.linked
  refine ⟨fun g hg => ?_, row.hash, hl.concat ?_⟩
  · rcases List.mem_append.mp hg with hold | hnew
    · exact h.digests g hold
    · rw [List.mem_singleton.mp hnew]
      exact hhash
  · rw [hprev, hl.end_eq]
    unfold Db.lastHash
    cases db.history.getLast? <;> rfl

-- == the states

/-- The history of one effect, in the order of `sequence`. -/
def Db.rowsOf (db : Db) (j : Text) : List HistoryRow :=
  db.history.filter fun h => decide (h.effectId = j)

/-- The history rows lead from one state to another; `none` is the state of
an effect that is not there. -/
def Leads : Option EffectState → List HistoryRow → Option EffectState → Prop :=
  List.Walk HistoryRow.fromState fun h => some h.toState

/-- The history of every effect leads to the state it is in, and the chain is
intact. -/
structure Audited (H : Host) (db : Db) : Prop where
  chained : Chained H db.history
  leads : ∀ j, Leads none (db.rowsOf j) ((db.effect? j).map EffectRow.state)

theorem Db.rowsOf_append (h : db'.history = db.history ++ [row]) (j : Text) :
    db'.rowsOf j = if row.effectId = j then db.rowsOf j ++ [row] else db.rowsOf j := by
  unfold Db.rowsOf
  rw [h, List.filter_append, List.filter_singleton]
  by_cases hj : row.effectId = j
  · simp only [hj, decide_true, cond_true, if_true]
  · simp only [hj, decide_false, cond_false, if_false, List.append_nil]

theorem Audited.append (h : Audited H db) (row : HistoryRow)
    (hhist : db'.history = db.history ++ [row])
    (hprev : row.previousHash = db.lastHash) (hhash : row.hash = row.digest H)
    (hfrom : row.fromState = (db.effect? row.effectId).map EffectRow.state)
    (hto : (db'.effect? row.effectId).map EffectRow.state = some row.toState)
    (hother : ∀ j, j ≠ row.effectId → db'.effect? j = db.effect? j) : Audited H db' := by
  refine ⟨?_, fun j => ?_⟩
  · rw [hhist]
    exact h.chained.append hprev hhash
  · rw [Db.rowsOf_append hhist]
    split
    · next hj =>
      subst hj
      rw [hto]
      exact List.Walk.concat (h.leads _) hfrom
    · next hj =>
      rw [hother j (Ne.symm hj)]
      exact h.leads j

theorem Moved.audited {id : Text} {mv : Move}
    (hm : Moved H id mv db db') (h : Audited H db) : Audited H db' := by
  cases hm with
  | @mk row f hf payload stamp hrow ht =>
    refine h.append (auditRow H db id mv.event (some row.state)
      (f row).state payload stamp) rfl rfl rfl ?_ ?_ fun j hj => ?_
    · show some row.state = (db.effect? id).map EffectRow.state
      rw [hrow]
      rfl
    · show (Option.map EffectRow.state (Db.effect? _ id)) = _
      rw [Db.effect?_insertHistory, Db.effect?_updateEffect, if_pos rfl, hrow]
      rfl
    · have hj : j ≠ id := hj
      rw [Db.effect?_insertHistory, Db.effect?_updateEffect, if_neg hj]

theorem Submitted.audited {row : EffectRow} (hf : Fresh row)
    (hs : Submitted H row db db') (h : Audited H db) : Audited H db' := by
  cases hs with
  | @mk db₁ payload stamp hi =>
    obtain ⟨hnone, hhist, hall⟩ := Db.insertEffect?_spec hi
    refine h.append (auditRow H db₁ row.effectId .effectSubmitted none
      .pendingAuthorization payload stamp) ?_ ?_ rfl ?_ ?_ fun j hj => ?_
    · rw [Db.history_insertHistory, hhist]
    · show db₁.lastHash = db.lastHash
      unfold Db.lastHash
      rw [hhist]
    · show none = (db.effect? row.effectId).map EffectRow.state
      rw [hnone]
      rfl
    · show (Option.map EffectRow.state (Db.effect? _ row.effectId)) = _
      rw [Db.effect?_insertHistory, hall row.effectId, if_pos rfl]
      obtain ⟨_, _, _, _, _, _, _, rfl, _⟩ := hf
      rfl
    · have hj : j ≠ row.effectId := hj
      rw [Db.effect?_insertHistory, hall j, if_neg hj]

theorem run_audited (calls : List Call) (hc : ∀ call ∈ calls, call.Serialises H) :
    (run H calls).disk.Every (Audited H) := by
  refine run_every (C := fun e => e.input.Serialises H)
    (I := fun _ => Audited H) ?_ ?_ calls (trace_serialises hc)
  · exact ⟨⟨fun _ h => (by cases h), genesis, rfl⟩, fun _ => rfl⟩
  · intro past e hser db db' hwork hI
    refine hwork.keeps ?_ ?_ ?_ hI
    · exact fun _ _ _ hf hs h => hs.audited hf h
    · exact fun _ _ _ _ hm h => hm.audited h
    · exact fun _ _ _ _ ha _ _ => (hser.not_aborts ha).elim

/-- The history replays the state, in every image after every run whose
arguments serialise: the rows of an effect lead, one state to the next, from
`NULL` to the state the effect is in, and the chain verifies. -/
theorem history_replays (H : Host) (calls : List Call) (hc : ∀ call ∈ calls, call.Serialises H) :
    (run H calls).disk.Every fun db => (∀ j row, db.effect? j = some row →
        Leads none (db.rowsOf j) (some row.state))
      ∧ verifyAuditChain H db = .ok true :=
  (run_audited calls hc).imp fun db h => by
    refine ⟨fun j row hj => ?_, h.chained.verifies⟩
    have hleads := h.leads j
    rw [hj] at hleads
    exact hleads

theorem history_replays_finished : (run Sample.host Sample.finished).disk.Every fun db =>
      (∀ j row, db.effect? j = some row → Leads none (db.rowsOf j) (some row.state))
      ∧ verifyAuditChain Sample.host db = .ok true :=
  history_replays Sample.host Sample.finished Sample.finished_serialises

end Centinal26.Effects
