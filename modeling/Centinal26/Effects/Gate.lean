/-
The gates of the pipeline: what a row must carry to be in its state, and that
what it carries is written once.
-/
import Centinal26.Effects.Runs
import Centinal26.Effects.Audit

namespace Centinal26.Effects

open Py Steps

variable {H : Host}

-- == columns

/-- The columns filled are those of the stages reached. -/
def Staged (row : EffectRow) : Prop :=
  ∀ c : Column, c.isSet row = decide (c.stage ≤ row.state.stage)

theorem Fresh.staged {row : EffectRow} (h : Fresh row) : Staged row := by
  obtain ⟨_, _, _, _, _, _, _, rfl, _⟩ := h
  intro c
  cases c <;> rfl

variable {mv : Move} {db db' : Db}

theorem Transition.staged {row row' : EffectRow}
    (h : Transition H mv row row') (hs : Staged row) : Staged row' := by
  intro c
  rcases h.stages with ⟨hstage, hcols⟩ | ⟨hstage, hcols⟩
  · obtain ⟨_, hset, hsame⟩ := hcols c
    by_cases hc : c.stage = row'.state.stage
    · rw [hset hc, hc]
      exact (decide_eq_true (Nat.le_refl _)).symm
    · rw [(hsame hc).isSet, hs c]
      exact decide_eq_decide.mpr (by omega)
  · rw [(hcols c).2.isSet, hs c, hstage]

theorem Transition.same {row row' : EffectRow}
    (h : Transition H mv row row') (hs : Staged row) {c : Column}
    (hc : c.isSet row = true) : c.Same row row' := by
  rcases h.stages with ⟨hstage, hcols⟩ | ⟨_, hcols⟩
  · refine (hcols c).2.2 fun heq => ?_
    rw [hs c] at hc
    have hle := of_decide_eq_true hc
    omega
  · exact (hcols c).2

/-- A move writes a column, by its name in the history, exactly if it fills
it. -/
theorem Transition.writes {row row' : EffectRow}
    (h : Transition H mv row row') (hs : Staged row) (c : Column) :
    (if c.isSet row' then 1 else 0) = (if c.isSet row then 1 else 0)
        + (if c.writtenBy mv.event then 1 else 0) := by
  have hs' := h.staged hs
  rw [hs c, hs' c]
  rcases h.stages with ⟨hstage, hcols⟩ | ⟨hstage, hcols⟩
  · rw [(hcols c).1, hstage]
    simp only [decide_eq_true_eq]
    split <;> split <;> split <;> omega
  · rw [(hcols c).1, hstage]
    rfl

-- == the gates

/-- An approval of the effect's request, unexpired when it was given, is
stored with the row. -/
def Authorized (H : Host) (past : List Step) (j : Text) (row : EffectRow) : Prop :=
  ∃ a stored e, e ∈ past ∧ e.input = .authorize j.str a
    ∧ e.output = .ok (.state .authorized) ∧ a.stored = .ok stored
    ∧ row.authorizationJson = some stored
    ∧ a.validFor H (H.clock e.before.ticks) row.requestJson = .ok true

/-- The execution on record was made under the persisted intent. -/
def Executed (row : EffectRow) : Prop :=
  ∃ result intent, row.executionResultJson = some result ∧ row.executionIntentJson = some intent
    ∧ result.executionToken = intent.executionToken

/-- An independent verification of exactly the execution on record. -/
def Verified (H : Host) (row : EffectRow) : Prop :=
  ∃ v result, row.verificationJson = some v ∧ v.passed = true
    ∧ v.independent = true ∧ row.executionResultJson = some result
    ∧ canonicalSha256 H (result.asdict H) = .ok v.executionResultSha256

/-- What a row carries for having passed its gates. -/
structure Gated (H : Host) (past : List Step) (j : Text) (row : EffectRow) : Prop where
  staged : Staged row
  authorized : row.state ≠ .pendingAuthorization → row.state ≠ .denied → Authorized H past j row
  executed : 2 ≤ row.state.stage → Executed row
  verified : 3 ≤ row.state.stage → row.state ≠ .verificationFailed → Verified H row

variable {past : List Step} {j : Text} {row row' : EffectRow}

theorem Authorized.later (h : Authorized H past j row) (e : Step) :
    Authorized H (past ++ [e]) j row := by
  obtain ⟨a, stored, e', he', hrest⟩ := h
  exact ⟨a, stored, e', List.mem_append_left _ he', hrest⟩

theorem Gated.later (h : Gated H past j row) (e : Step) : Gated H (past ++ [e]) j row :=
  ⟨h.staged, fun hp hd => (h.authorized hp hd).later e, h.executed, h.verified⟩

theorem Authorized.follow (h : Authorized H past j row)
    (ha : row'.authorizationJson = row.authorizationJson)
    (hr : row'.requestJson = row.requestJson) : Authorized H past j row' := by
  obtain ⟨a, stored, e, he, hin, hout, hst, hrow, hv⟩ := h
  exact ⟨a, stored, e, he, hin, hout, hst, ha.trans hrow, by rw [hr]; exact hv⟩

theorem Transition.gated (ht : Transition H mv row row')
    (hmv : ∀ a now, mv ≠ .approved a now) (h : Gated H past j row) : Gated H past j row' := by
  have hstaged := ht.staged h.staged
  have hauth : row'.state ≠ .pendingAuthorization → row'.state ≠ .denied →
      Authorized H past j row' := by
    rcases ht.decided with ⟨a, now, rfl⟩ | ⟨_, hs⟩ | ⟨hp, hd, hsame⟩
    · exact absurd rfl (hmv a now)
    · exact fun _ hd => absurd hs hd
    · exact fun _ _ => (h.authorized hp hd).follow hsame ht.requestJson
  have hattempt : row'.state.stage = 1 → Gated H past j row' := fun hs =>
    ⟨hstaged, hauth, fun hle => by omega, fun hle => by omega⟩
  cases ht with
  | approve _ _ _ => exact absurd rfl (hmv _ _)
  | deny _ _ _ => exact hattempt rfl
  | cancel _ _ => exact hattempt rfl
  | exhaust _ _ => exact hattempt rfl
  | claim _ _ _ => exact hattempt rfl
  | begin _ _ _ _ => exact hattempt rfl
  | record hs hi ht =>
    have hlow : ¬ 3 ≤ EffectState.stage .executed := by decide
    exact ⟨hstaged, hauth, fun _ => ⟨_, _, rfl, hi, ht⟩, fun hle => absurd hle hlow⟩
  | @fail _ n _ _ =>
    cases n with
    | true => exact hattempt (stage_retryState row)
    | false => exact hattempt rfl
  | pass hs hr hh hp hi =>
    have hexec := h.executed (by rw [hs]; exact Nat.le_refl 2)
    exact ⟨hstaged, hauth, fun _ => hexec, fun _ _ => ⟨_, _, rfl, hp, hi, hr, hh⟩⟩
  | reject hs _ =>
    have hexec := h.executed (by rw [hs]; exact Nat.le_refl 2)
    exact ⟨hstaged, hauth, fun _ => hexec, fun _ hne => absurd rfl hne⟩
  | publish hs =>
    have hexec := h.executed (by rw [hs]; decide)
    have hver := h.verified (by rw [hs]; decide) (by rw [hs]; nofun)
    exact ⟨hstaged, hauth, fun _ => hexec, fun _ _ => hver⟩
  | acknowledge hs =>
    have hexec := h.executed (by rw [hs]; decide)
    have hver := h.verified (by rw [hs]; decide) (by rw [hs]; nofun)
    exact ⟨hstaged, hauth, fun _ => hexec, fun _ _ => hver⟩
  | unknown _ _ => exact hattempt rfl
  | notExecuted _ _ => exact hattempt (stage_retryState row)
  | lapseClaim _ => exact hattempt (stage_retryState row)
  | lapseExecution _ => exact hattempt rfl

theorem Lapse.gated (hl : Lapse H row row') (h : Gated H past j row) : Gated H past j row' := by
  cases hl with
  | none => exact h
  | claim ht => exact ht.gated nofun h
  | execution ht => exact ht.gated nofun h

theorem RowWork.gated {e : Step} (hser : e.input.Serialises H)
    (hI : ∀ row, db.effect? j = some row → Gated H past j row)
    (h : RowWork H e.before past db j row' e.input e.output) : Gated H (past ++ [e]) j row' := by
  obtain ⟨call, w, r, w'⟩ := e
  simp only at h hser
  cases h with
  | same hrow _ => exact (hI _ hrow).later _
  | fresh hf _ _ =>
    have hstaged := hf.staged
    obtain ⟨_, _, _, _, _, _, _, rfl, _⟩ := hf
    have hlow : ¬ 2 ≤ EffectState.stage .pendingAuthorization := by decide
    exact ⟨hstaged, fun hp _ => absurd rfl hp, fun hle => absurd hle hlow,
      fun hle => absurd (Nat.le_of_succ_le hle) hlow⟩
  | moved _ hrow hid hd ht =>
    have hg := hI _ hrow
    cases hd with
    | @authorized _ a hin =>
      have hstaged := ht.staged hg.staged
      cases ht with
      | @approve _ _ stored _ _ _ hv hst =>
        have hlow : ¬ 2 ≤ EffectState.stage .authorized := by decide
        refine ⟨hstaged, fun _ _ => ?_, fun hle => absurd hle hlow,
          fun hle => absurd (Nat.le_of_succ_le hle) hlow⟩
        exact ⟨a, stored, _, List.mem_append_right _ (List.mem_singleton_self _),
          by rw [hid, hin], rfl, hst, rfl, hv⟩
    | _ => exact ht.gated nofun (hg.later _)
  | reported hrow _ _ ht => exact ht.gated nofun ((hI _ hrow).later _)
  | aborted _ _ _ ha _ => exact (hser.not_aborts ha).elim
  | lapsed hrow hl _ => exact hl.gated ((hI _ hrow).later _)
  | declined hrow hl hmv ht =>
    refine ht.gated (fun a now heq => ?_) (hl.gated ((hI _ hrow).later _))
    rw [heq] at hmv
    rcases hmv with h | h <;> cases h
  | granted _ hrow hl _ _ ht =>
    exact ht.gated nofun (hl.gated ((hI _ hrow).later _))

-- == written once

/-- How often a column has been written, going by the history. -/
def Db.writes (db : Db) (j : Text) (c : Column) : Nat :=
  (db.rowsOf j).countP fun h => c.writtenBy h.event

/-- Every column filled has been written once, every other never. -/
def Once (db : Db) : Prop :=
  ∀ j c, db.writes j c = match db.effect? j with
    | some row => if c.isSet row then 1 else 0
    | none => 0

theorem Db.writes_append {h : HistoryRow}
    (hh : db'.history = db.history ++ [h]) (j : Text) (c : Column) :
    db'.writes j c = db.writes j c
      + if h.effectId = j ∧ c.writtenBy h.event = true then 1 else 0 := by
  unfold Db.writes
  rw [Db.rowsOf_append hh]
  split
  · next hj =>
    rw [List.countP_append, List.countP_singleton]
    simp only [hj, true_and]
  · next hj => simp only [hj, false_and, if_false, Nat.add_zero]

theorem Moved.once {id : Text} (hm : Moved H id mv db db')
    (hs : ∀ j row, db.effect? j = some row → Staged row) (h : Once db) : Once db' := by
  intro j c
  have hall := hm.rowMoved
  obtain ⟨row, row', hrow, ht, hall⟩ := hall
  have hhist : ∃ g : HistoryRow, db'.history = db.history ++ [g]
      ∧ g.effectId = id ∧ g.event = mv.event := by
    cases hm with
    | mk _ _ => exact ⟨_, rfl, rfl, rfl⟩
  obtain ⟨g, hhist, hgid, hgev⟩ := hhist
  rw [Db.writes_append hhist, h j c, hall j, hgid, hgev]
  by_cases hj : j = id
  · subst hj
    rw [if_pos rfl, hrow]
    simp only [true_and]
    exact (ht.writes (hs _ _ hrow) c).symm
  · rw [if_neg hj]
    simp only [Ne.symm hj, false_and, if_false, Nat.add_zero]

theorem Submitted.once {row : EffectRow} (hf : Fresh row)
    (hsub : Submitted H row db db') (h : Once db) : Once db' := by
  intro j c
  cases hsub with
  | @mk db₁ payload stamp hi =>
    obtain ⟨hnone, hhist, hall⟩ := Db.insertEffect?_spec hi
    have hhist' : (db₁.insertHistory (auditRow H db₁ row.effectId
        .effectSubmitted none .pendingAuthorization payload stamp)).history
        = db.history ++ [auditRow H db₁ row.effectId .effectSubmitted none
          .pendingAuthorization payload stamp] := by
      rw [Db.history_insertHistory, hhist]
    have hnever : c.writtenBy .effectSubmitted = false := by
      cases c <;> rfl
    rw [Db.writes_append hhist', h j c, Db.effect?_insertHistory, hall j]
    have hevent : (auditRow H db₁ row.effectId .effectSubmitted none
        .pendingAuthorization payload stamp).event = .effectSubmitted := rfl
    simp only [hevent, hnever, Bool.false_eq_true, and_false, if_false, Nat.add_zero]
    by_cases hj : j = row.effectId
    · subst hj
      rw [if_pos rfl, hnone]
      have hempty : c.isSet row = false := by
        obtain ⟨_, _, _, _, _, _, _, rfl, _⟩ := hf
        cases c <;> rfl
      simp only [hempty, Bool.false_eq_true, if_false]
    · rw [if_neg hj]

/-- The columns of every row are those of its stage, written once. -/
def Recorded (db : Db) : Prop :=
  (∀ j row, db.effect? j = some row → Staged row) ∧ Once db

theorem run_recorded (calls : List Call) (hc : ∀ call ∈ calls, call.Serialises H) :
    (run H calls).disk.Every Recorded :=
  run_every (H := H) (C := fun e => e.input.Serialises H) (I := fun _ => Recorded)
    ⟨fun _ _ h => (by cases h), fun _ c => by cases c <;> rfl⟩
    (fun past e hser db db' hwork hI => by
      refine hwork.keeps (I := Recorded) ?_ ?_ ?_ hI
      · intro row db db' hf hsub h
        refine ⟨fun j row' hj => ?_, hsub.once hf h.2⟩
        cases hsub with
        | mk hi =>
          obtain ⟨_, _, hall⟩ := Db.insertEffect?_spec hi
          rw [Db.effect?_insertHistory, hall j] at hj
          split at hj
          · cases hj
            exact hf.staged
          · exact h.1 j row' hj
      · intro id mv db db' hm h
        refine ⟨fun j row' hj => ?_, hm.once h.1 h.2⟩
        rcases hm.rowMoved.cases hj with ⟨_, row, hrow, ht⟩ | ⟨_, hsame⟩
        · exact ht.staged (h.1 j row hrow)
        · exact h.1 j row' hsame
      · exact fun _ _ _ _ ha _ _ => (hser.not_aborts ha).elim)
    calls (trace_serialises hc)

/-- The rows of one image in a later one: all there, with what was written
unchanged. -/
def Keeps (db db' : Db) : Prop :=
  ∀ j row, db.effect? j = some row → Staged row → ∃ row', db'.effect? j = some row' ∧ Staged row'
      ∧ ∀ c : Column, c.isSet row = true → c.Same row row'

theorem RowMoved.keeps {id : Text} {db₀ : Db}
    (hm : RowMoved H id mv db db') (h : Keeps db₀ db) : Keeps db₀ db' := by
  intro j row₀ hj hs₀
  obtain ⟨row, hrow, hs, hsame⟩ := h j row₀ hj hs₀
  obtain ⟨row', hrow', hcase⟩ := hm.forward hrow
  rcases hcase with ⟨_, ht⟩ | ⟨_, rfl⟩
  · refine ⟨row', hrow', ht.staged hs, fun c hc => ?_⟩
    have hmid := hsame c hc
    exact hmid.trans (ht.same hs (hmid.isSet.trans hc))
  · exact ⟨row', hrow', hs, hsame⟩

theorem Submitted.keeps {row : EffectRow} {db₀ : Db}
    (hsub : Submitted H row db db') (h : Keeps db₀ db) : Keeps db₀ db' := by
  intro j row₀ hj hs₀
  obtain ⟨row₁, hrow, hrest⟩ := h j row₀ hj hs₀
  refine ⟨row₁, ?_, hrest⟩
  cases hsub with
  | mk hi =>
    obtain ⟨hnone, _, hall⟩ := Db.insertEffect?_spec hi
    rw [Db.effect?_insertHistory, hall j]
    split
    · next heq =>
      rw [heq, hnone] at hrow
      cases hrow
    · exact hrow

theorem run_keeps (calls more : List Call) (hc : ∀ call ∈ calls ++ more, call.Serialises H) :
    Keeps ((run H calls).view 0) ((run H (calls ++ more)).view 0) := by
  refine run_kept ?_ ?_ calls more hc
  · exact fun db j row hj hs => ⟨row, hj, hs, fun c _ => .refl c row⟩
  · intro e hser db₀ db db' hwork h
    refine hwork.keeps (I := Keeps db₀) ?_ ?_ ?_ h
    · exact fun _ _ _ _ hsub h => hsub.keeps h
    · exact fun _ _ _ _ hm h => hm.rowMoved.keeps h
    · exact fun _ _ _ _ ha _ _ => (hser.not_aborts ha).elim

-- == what is stored

theorem EffectAuthorization.stored_spec {a stored : EffectAuthorization}
    (h : a.stored = .ok stored) :
    stored.approved = a.approved ∧ stored.requestSha256 = a.requestSha256
      ∧ stored.capability = a.capability ∧ stored.expiresAt = a.expiresAt := by
  unfold EffectAuthorization.stored at h
  cases hc : roundTrip a.constraints with
  | error e =>
    rw [hc] at h
    cases h
  | ok constraints =>
    rw [hc] at h
    cases h
    exact ⟨rfl, rfl, rfl, rfl⟩

theorem EffectAuthorization.validFor_eq_true {a : EffectAuthorization}
    {now : Instant} {r : EffectRequest} (h : a.validFor H now r = .ok true) : a.approved = true
      ∧ (∃ sha, r.sha256 H = .ok sha ∧ a.requestSha256 = sha.str)
      ∧ a.capability = r.capability
      ∧ ∃ expires, fromisoformat a.expiresAt = .ok expires
        ∧ (DateTime.aware now).lt expires = .ok true := by
  unfold EffectAuthorization.validFor at h
  cases hexp : fromisoformat a.expiresAt with
  | error e =>
    rw [hexp] at h
    cases h
  | ok expires =>
    rw [hexp] at h
    simp only at h
    split at h
    · next happroved =>
      cases hsha : r.sha256 H with
      | error e =>
        rw [hsha] at h
        cases h
      | ok sha =>
        rw [hsha] at h
        change (if a.requestSha256 = sha.str ∧ a.capability = r.capability
          then _ else _) = _ at h
        split at h
        · next hbound =>
          exact ⟨happroved, ⟨sha, rfl, hbound.1⟩, hbound.2, expires, rfl, h⟩
        · cases h
    · cases h

/-- In every run whose arguments serialise the rows have passed their
gates. -/
theorem run_gated (calls : List Call) (hc : ∀ call ∈ calls, call.Serialises H) :
    (run H calls).disk.Every fun db =>
      ∀ j row, db.effect? j = some row → Gated H (trace H calls) j row :=
  run_rows (C := fun e => e.input.Serialises H)
    (fun _ _ hser _ _ _ hI h => h.gated hser hI) calls (trace_serialises hc)

/-- The approval a row carries is one that `authorize` found to be approved,
bound to the request, and unexpired at the reading it took. -/
def Approval (H : Host) (past : List Step) (j : Text) (row : EffectRow) : Prop :=
  ∃ stored, row.authorizationJson = some stored ∧ stored.approved = true
    ∧ (∃ sha, row.requestJson.sha256 H = .ok sha ∧ stored.requestSha256 = sha.str)
    ∧ stored.capability = row.requestJson.capability
    ∧ ∃ a e expires, e ∈ past ∧ e.input = .authorize j.str a ∧ e.output = .ok (.state .authorized)
      ∧ fromisoformat stored.expiresAt = .ok expires
      ∧ (DateTime.aware (H.clock e.before.ticks)).lt expires = .ok true

theorem Authorized.approval (h : Authorized H past j row) : Approval H past j row := by
  obtain ⟨a, stored, e, he, hin, hout, hst, hrow, hv⟩ := h
  obtain ⟨happroved, ⟨sha, hsha, hbound⟩, hcap, expires, hexp, hlt⟩ :=
    EffectAuthorization.validFor_eq_true hv
  obtain ⟨h₁, h₂, h₃, h₄⟩ := EffectAuthorization.stored_spec hst
  exact ⟨stored, hrow, h₁.trans happroved, ⟨sha, hsha, h₂.trans hbound⟩,
    h₃.trans hcap, a, e, expires, he, hin, hout, by rw [h₄]; exact hexp, hlt⟩

/-- The gates of the pipeline, in every run whose arguments serialise: what an
effect carries in each state, that each of the five columns has been written
at most once, and that what an earlier part of the run wrote is still there
unchanged. -/
theorem pipeline_gates (H : Host) (calls : List Call) (hc : ∀ call ∈ calls, call.Serialises H) :
    ((run H calls).disk.Every fun db => ∀ j row, db.effect? j = some row →
      (row.state ≠ .pendingAuthorization → row.state ≠ .denied → Approval H (trace H calls) j row)
      ∧ (row.state = .executed ∨ row.state = .verified
        ∨ row.state = .published ∨ row.state = .acknowledged → Executed row)
      ∧ (row.state = .verified ∨ row.state = .published
        ∨ row.state = .acknowledged → Verified H row)
      ∧ (row.state = .published ∨ row.state = .acknowledged → ∃ p, row.publicationJson = some p)
      ∧ ∀ c, db.writes j c ≤ 1) ∧ ∀ earlier later, calls = earlier ++ later →
      ∀ j row, ((run H earlier).view 0).effect? j = some row →
        ∃ row', ((run H calls).view 0).effect? j = some row'
          ∧ ∀ c : Column, c.isSet row = true → c.Same row row' := by
  constructor
  · refine ((run_gated calls hc).and (run_recorded calls hc)).imp
      fun db ⟨hgated, _, honce⟩ j row hj => ?_
    have hg := hgated j row hj
    refine ⟨fun hp hd => (hg.authorized hp hd).approval, fun hs => ?_,
      fun hs => ?_, fun hs => ?_, fun c => ?_⟩
    · apply hg.executed
      rcases hs with hs | hs | hs | hs <;> rw [hs] <;> decide
    · apply hg.verified
      · rcases hs with hs | hs | hs <;> rw [hs] <;> decide
      · rcases hs with hs | hs | hs <;> rw [hs] <;> nofun
    · have hset := hg.staged .publication
      rw [decide_eq_true (by rcases hs with hs | hs <;> rw [hs] <;> decide)] at hset
      exact Option.isSome_iff_exists.mp hset
    · rw [honce j c, hj]
      simp only
      split <;> omega
  · rintro earlier later rfl j row hj
    have hstaged := ((run_recorded earlier fun call h =>
      hc call (List.mem_append_left _ h)).view 0).1 j row hj
    obtain ⟨row', hrow', _, hsame⟩ := run_keeps earlier later hc j row hj hstaged
    exact ⟨row', hrow', hsame⟩

/-- The sample effect, once acknowledged, carries everything. -/
theorem pipeline_gates_finished : ((run Sample.host Sample.finished).disk.Every fun db =>
      ∀ j row, db.effect? j = some row →
      (row.state ≠ .pendingAuthorization → row.state ≠ .denied →
        Approval Sample.host (trace Sample.host Sample.finished) j row)
      ∧ (row.state = .executed ∨ row.state = .verified
        ∨ row.state = .published ∨ row.state = .acknowledged → Executed row)
      ∧ (row.state = .verified ∨ row.state = .published
        ∨ row.state = .acknowledged → Verified Sample.host row)
      ∧ (row.state = .published ∨ row.state = .acknowledged → ∃ p, row.publicationJson = some p)
      ∧ ∀ c, db.writes j c ≤ 1) ∧ ∀ earlier later, Sample.finished = earlier ++ later →
      ∀ j row, ((run Sample.host earlier).view 0).effect? j = some row →
        ∃ row', ((run Sample.host Sample.finished).view 0).effect? j = some row'
          ∧ ∀ c : Column, c.isSet row = true → c.Same row row' :=
  pipeline_gates Sample.host Sample.finished Sample.finished_serialises

end Centinal26.Effects
