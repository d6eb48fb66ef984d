/-
Execution tokens are fenced by attempt.
-/
import Centinal26.Lib.Since
import Centinal26.Effects.Draws

namespace Centinal26.Effects

open Py Steps

variable {H : Host}

-- == the fence

/-- The call returned a claim of the effect, under this claim token. -/
def ClaimedAs (j : Text) (claimToken : PyStr) (e : Step) : Prop :=
  ∃ c, e.output = .ok (.claimed (some c)) ∧ c.effectId = j.str ∧ c.claimToken = claimToken

/-- The latest claim of the effect returned this claim token. -/
def Holds (j : Text) (claimToken : PyStr) (past : List Step) : Prop :=
  List.Since (ClaimedAs j claimToken) (Grants j) past

/-- The call began an execution of the effect under a claim token, and
returned this execution token. -/
def Issues (j : Text) (claimToken token : PyStr) (e : Step) : Prop :=
  ∃ c p k o t, e.input = .beginExecution c p k o ∧ e.output = .ok (.token t) ∧ c.effectId = j.str
    ∧ c.claimToken = claimToken ∧ t.str = token

/-- The token was issued under the latest claim of the effect, and the attempt
has not been declared not executed since. -/
def Fenced (j : Text) (token : PyStr) (past : List Step) : Prop :=
  ∃ pre b post claimToken, past = pre ++ b :: post ∧ Holds j claimToken pre
    ∧ Issues j claimToken token b
    ∧ ∀ k ∈ post, ¬ Grants j k ∧ ¬ Releases j k

def accepts (j : Text) (token : PyStr) : Call → Except LedgerError Reply → Bool
  | .recordExecution id t _ _, .ok _ => decide (id = j.str ∧ t = token)
  | .reconcileExecution id t _ _ _, .ok _ => decide (id = j.str ∧ t = token)
  | _, _ => false

abbrev Accepts (j : Text) (token : PyStr) (e : Step) : Prop :=
  accepts j token e.input e.output = true

/-- A failure reported, by the claimant, before an execution was begun but
with an intent of an earlier attempt still there. -/
def Revives (w : World) : Call → Prop
  | .markExecutionFailure c _ false =>
    ∃ row, (w.view 0).effect? row.effectId = some row
      ∧ c.effectId = row.effectId.str ∧ claimIdentity row c = true
      ∧ row.state = .claimed ∧ row.executionIntentJson.isSome = true
  | _ => False

variable {j : Text} {past : List Step} {e : Step} {token : PyStr} {row row' : EffectRow} {mv : Move}

theorem Holds.concat {t : PyStr}
    (h : Holds j t past) (hg : ¬ Grants j e) : Holds j t (past ++ [e]) :=
  List.since_concat.mpr (Or.inr ⟨hg, h⟩)

theorem Fenced.concat (h : Fenced j token past) (hg : ¬ Grants j e) (hr : ¬ Releases j e) :
    Fenced j token (past ++ [e]) := by
  obtain ⟨pre, b, post, t, rfl, hholds, hb, hpost⟩ := h
  refine ⟨pre, b, post ++ [e], t, by simp, hholds, hb, fun k hk => ?_⟩
  rcases List.mem_append.mp hk with hk | hk
  · exact hpost k hk
  · rw [List.mem_singleton.mp hk]
    exact ⟨hg, hr⟩

-- == the tokens of a row

def Presents (row : EffectRow) (token : PyStr) : Prop :=
  (row.state.isOpen ∧ row.executionIntentJson.map ExecutionIntent.executionToken = some token)
  ∨ (row.state = .executed
    ∧ row.executionResultJson.map ExecutionRecord.executionToken = some token)

theorem not_presents_of_retry {row₁ : EffectRow}
    (hs : row.state = retryState row₁) : ¬ Presents row token := by
  rintro (⟨hopen, _⟩ | ⟨hx, _⟩)
  · rw [hs] at hopen
    exact not_isOpen_retryState row₁ hopen
  · rw [hs] at hx
    rcases retryState_cases row₁ with hr | hr <;> rw [hr] at hx <;> cases hx

/-- A row accepts after a move what it accepted before, unless the move began
an execution or was a failure of one that had not begun. -/
theorem Transition.presents
    (h : Transition H mv row row') (hp : Presents row' token) : Presents row token
      ∨ (∃ t now, mv = .began t now ∧ t.str = token)
      ∨ (mv = .failed false ∧ row.state = .claimed ∧ row.executionIntentJson.isSome = true) := by
  cases h with
  | approve _ _ _ => rcases hp with ⟨h | h, _⟩ | ⟨h, _⟩ <;> cases h
  | deny _ _ _ => rcases hp with ⟨h | h, _⟩ | ⟨h, _⟩ <;> cases h
  | cancel _ _ => rcases hp with ⟨h | h, _⟩ | ⟨h, _⟩ <;> cases h
  | exhaust _ _ => rcases hp with ⟨h | h, _⟩ | ⟨h, _⟩ <;> cases h
  | claim _ _ _ => rcases hp with ⟨h | h, _⟩ | ⟨h, _⟩ <;> cases h
  | pass _ _ _ _ _ => rcases hp with ⟨h | h, _⟩ | ⟨h, _⟩ <;> cases h
  | reject _ _ => rcases hp with ⟨h | h, _⟩ | ⟨h, _⟩ <;> cases h
  | publish _ => rcases hp with ⟨h | h, _⟩ | ⟨h, _⟩ <;> cases h
  | acknowledge _ => rcases hp with ⟨h | h, _⟩ | ⟨h, _⟩ <;> cases h
  | begin _ _ _ ht =>
    refine Or.inr (Or.inl ⟨_, _, rfl, ?_⟩)
    rcases hp with ⟨_, hi⟩ | ⟨h, _⟩
    · exact ht.symm.trans (Option.some.inj hi)
    · cases h
  | record hs hi ht =>
    rcases hp with ⟨h | h, _⟩ | ⟨_, hr⟩
    · cases h
    · cases h
    · refine Or.inl (Or.inl ⟨hs, ?_⟩)
      rw [hi]
      exact (congrArg some ht.symm).trans hr
  | @fail _ n _ hs =>
    cases n with
    | true => exact absurd hp (not_presents_of_retry rfl)
    | false =>
      rcases hp with ⟨_, hi⟩ | ⟨h, _⟩
      · rcases hs with hs | hs
        · refine Or.inr (Or.inr ⟨rfl, hs, ?_⟩)
          obtain ⟨i, hi, _⟩ := Option.map_eq_some_iff.mp hi
          exact Option.isSome_iff_exists.mpr ⟨i, hi⟩
        · exact Or.inl (Or.inl ⟨Or.inl hs, hi⟩)
      · cases h
  | unknown hs _ =>
    rcases hp with ⟨_, hi⟩ | ⟨h, _⟩
    · exact Or.inl (Or.inl ⟨hs, hi⟩)
    · cases h
  | notExecuted _ _ => exact absurd hp (not_presents_of_retry rfl)
  | lapseClaim _ => exact absurd hp (not_presents_of_retry rfl)
  | lapseExecution hs =>
    rcases hp with ⟨_, hi⟩ | ⟨h, _⟩
    · exact Or.inl (Or.inl ⟨Or.inl hs, hi⟩)
    · cases h

theorem Transition.not_presents (h : Transition H mv row row')
    (hmv : mv = .failed true ∨ ∃ t, mv = .notExecuted t) : ¬ Presents row' token := by
  rcases hmv with rfl | ⟨t, rfl⟩
  · cases h with
    | fail _ => exact not_presents_of_retry rfl
  · cases h with
    | notExecuted _ _ => exact not_presents_of_retry rfl

theorem Transition.claimed (h : Transition H mv row row') (hs : row'.state = .claimed) :
    ∃ c, mv = .claimed c ∧ row'.claimToken.map Text.str = some c.claimToken := by
  have hretry : ∀ row : EffectRow, retryState row ≠ .claimed := fun row h => by
    rcases retryState_cases row with hr | hr <;> rw [hr] at h <;> cases h
  cases h with
  | claim _ _ _ => exact ⟨_, rfl, rfl⟩
  | @fail _ n _ _ =>
    cases n with
    | true => exact absurd hs (hretry _)
    | false => cases hs
  | notExecuted _ _ => exact absurd hs (hretry _)
  | lapseClaim _ => exact absurd hs (hretry _)
  | _ => cases hs

/-- What a row accepts is fenced, and a claimed row is held under its own
claim token. -/
structure Guarded (past : List Step) (j : Text) (row : EffectRow) : Prop where
  fenced : ∀ token, Presents row token → Fenced j token past
  held : row.state = .claimed → ∀ t, row.claimToken.map Text.str = some t → Holds j t past

/-- A call that neither claims nor releases the effect keeps what it
guards. -/
theorem Guarded.concat (h : Guarded past j row) (hg : ¬ Grants j e)
    (hr : ¬ Releases j e) : Guarded (past ++ [e]) j row :=
  ⟨fun token hp => (h.fenced token hp).concat hg hr, fun hs t ht => (h.held hs t ht).concat hg⟩

/-- A move other than a claim keeps the guard, if it neither begins an
execution nor revives an intent. -/
theorem Guarded.move (h : Guarded past j row) (ht : Transition H mv row row')
    (hclaim : ∀ c, mv ≠ .claimed c) (hbegin : ∀ t now, mv ≠ .began t now)
    (hfail : mv = .failed false → row.state = .claimed →
      row.executionIntentJson.isSome = false) : Guarded past j row' := by
  constructor
  · intro token hp
    rcases ht.presents hp with hp | ⟨t, now, hmv, _⟩ | ⟨hmv, hs, hi⟩
    · exact h.fenced token hp
    · exact absurd hmv (hbegin t now)
    · rw [hfail hmv hs] at hi
      cases hi
  · intro hs
    obtain ⟨c, hmv, _⟩ := ht.claimed hs
    exact absurd hmv (hclaim c)

theorem Lapse.guarded (hl : Lapse H row row') (h : Guarded past j row) : Guarded past j row' := by
  cases hl with
  | none => exact h
  | claim ht => exact h.move ht nofun nofun nofun
  | execution ht => exact h.move ht nofun nofun nofun

theorem Guarded.began {c : EffectClaim} {p k o : PyStr} {w w' : World} {t : Text}
    {now : Instant} (h : Guarded past j row) (hid : c.effectId = j.str)
    (hc : claimIdentity row c = true) (ht : Transition H (.began t now) row row') :
    Guarded (past ++ [⟨.beginExecution c p k o, w, .ok (.token t), w'⟩]) j row' := by
  have hclaim : row.claimToken.map Text.str = some c.claimToken :=
    of_decide_eq_true (Bool.and_eq_true_iff.mp hc).1
  cases ht with
  | begin hs _ _ ht =>
    constructor
    · intro token hp
      have htoken : t.str = token := by
        rcases hp with ⟨_, hi⟩ | ⟨h, _⟩
        · exact ht.symm.trans (Option.some.inj hi)
        · cases h
      exact ⟨past, _, [], c.claimToken, rfl, h.held hs _ hclaim,
        ⟨c, p, k, o, t, rfl, rfl, hid, rfl, htoken⟩,
        fun _ hk => by cases hk⟩
    · intro hs'
      cases hs'

theorem Guarded.released (ht : Transition H mv row row')
    (hmv : mv = .failed true ∨ ∃ t, mv = .notExecuted t) : Guarded past j row' := by
  constructor
  · intro token hp
    exact absurd hp (ht.not_presents hmv)
  · intro hs
    obtain ⟨c, hc, _⟩ := ht.claimed hs
    rcases hmv with rfl | ⟨t, rfl⟩ <;> cases hc

theorem RowWork.guarded {db : Db} (hrevive : ¬ Revives e.before e.input)
    (hI : ∀ row, db.effect? j = some row → Guarded past j row)
    (h : RowWork H e.before past db j row' e.input e.output) : Guarded (past ++ [e]) j row' := by
  obtain ⟨call, w, r, w'⟩ := e
  simp only at h hrevive
  have hquiet : ∀ {row}, Guarded past j row → ¬ Marks j call r →
      Guarded (past ++ [⟨call, w, r, w'⟩]) j row := fun hrow hq =>
    hrow.concat (fun h => hq (Or.inl h)) (fun h => hq (Or.inr (Or.inr h)))
  have hfail : ∀ {row : EffectRow} {c error},
      call = .markExecutionFailure c error false → db = w.view 0 →
      db.effect? j = some row → j = row.effectId →
      c.effectId = row.effectId.str → claimIdentity row c = true →
      row.state = .claimed → row.executionIntentJson.isSome = false := by
    rintro row c error rfl rfl hrow rfl hid hc hs
    cases hi : row.executionIntentJson.isSome with
    | false => rfl
    | true => exact absurd ⟨row, hrow, hid, hc, hs, hi⟩ hrevive
  cases h with
  | same hrow hq => exact hquiet (hI _ hrow) hq
  | fresh hf hid hnew =>
    obtain ⟨id, key, sha, request, n, hlt, stamp, rfl, _⟩ := hf
    constructor
    · rintro token (⟨h | h, _⟩ | ⟨h, _⟩) <;> cases h
    · intro hs
      cases hs
  | moved hview hrow hid hd ht =>
    have hrowI := hI _ hrow
    cases hd with
    | began hcid hc => exact hrowI.began (hcid.trans (by rw [hid])) hc ht
    | @failed c error n hcid hc hdump =>
      cases n with
      | true => exact Guarded.released ht (Or.inl rfl)
      | false =>
        refine (hrowI.move ht nofun nofun fun _ hs => ?_).concat nofun nofun
        exact hfail rfl hview hrow hid hcid hc hs
    | notExecuted _ => exact Guarded.released ht (Or.inr ⟨_, rfl⟩)
    | _ =>
      exact (hrowI.move ht nofun nofun nofun).concat nofun nofun
  | reported hrow hid hr ht =>
    exact hquiet ((hI _ hrow).move ht nofun nofun nofun) hr.not_marks
  | aborted hview hrow hid ha ht =>
    refine hquiet ((hI _ hrow).move ht ?_ ?_ ?_) not_marks_error
    · cases ha <;> nofun
    · cases ha <;> nofun
    · intro hmv hs
      cases ha with
      | fail hcid hc _ =>
        cases hmv
        exact hfail rfl hview hrow hid hcid hc hs
      | _ => cases hmv
  | lapsed hrow hl hq => exact hquiet (hl.guarded (hI _ hrow)) hq
  | declined hrow hl hmv ht =>
    refine ((hl.guarded (hI _ hrow)).move ht ?_ ?_ ?_).concat nofun nofun
    · rintro c rfl
      rcases hmv with h | h <;> cases h
    · rintro t now rfl
      rcases hmv with h | h <;> cases h
    · rintro rfl
      rcases hmv with h | h <;> cases h
  | granted _ hrow hl hid htoken ht =>
    cases ht with
    | claim _ _ _ =>
      constructor
      · rintro token (⟨h | h, _⟩ | ⟨h, _⟩) <;> cases h
      · intro _ t ht
        exact List.since_concat.mpr (Or.inl ⟨_, rfl, hid, Option.some.inj ht⟩)

theorem run_guarded (calls : List Call)
    (hrevive : ∀ e ∈ trace H calls, ¬ Revives e.before e.input) :
    (run H calls).disk.Every fun db => ∀ j row, db.effect? j = some row →
      Guarded (trace H calls) j row :=
  run_rows (C := fun e => ¬ Revives e.before e.input) (R := Guarded)
    (fun _ _ hrev _ _ _ hI h => h.guarded hrev hI) calls hrevive

-- == the claim

theorem Ran.presents_of_accepts {w w' : World}
    {call : Call} {r : Except LedgerError Reply} (h : Ran H w call r w')
    (ha : accepts j token call r = true) : ∃ db row, (db = w.view 0 ∨ db = w.disk.file)
      ∧ db.effect? j = some row ∧ Presents row token := by
  have hfind : ∀ {db : Db} {row : EffectRow} {id t : PyStr},
      db.effect? row.effectId = some row → id = row.effectId.str →
      id = j.str ∧ t = token → db.effect? j = some row ∧ t = token := by
    intro db row id t hrow hid heq
    rw [Text.ext (heq.1.symm.trans hid)]
    exact ⟨hrow, heq.2⟩
  have hreplay : ∀ {db : Db} {row : EffectRow},
      db.effect? row.effectId = some row → Replays row call →
      accepts j token call (.ok (.state row.state)) = true →
      db.effect? j = some row ∧ Presents row token := by
    intro db row hrow hr ha
    cases hr with
    | record hid hs ht =>
      obtain ⟨hj, rfl⟩ := hfind hrow hid (of_decide_eq_true ha)
      exact ⟨hj, Or.inr ⟨hs, ht⟩⟩
    | reconcile hid hs ht =>
      obtain ⟨hj, rfl⟩ := hfind hrow hid (of_decide_eq_true ha)
      exact ⟨hj, Or.inr ⟨hs, ht⟩⟩
    | _ => cases ha
  cases h with
  | replayed hrow hr _ => exact ⟨_, _, Or.inl rfl, hreplay hrow hr ha⟩
  | rereplayed hrow hr _ => exact ⟨_, _, Or.inr rfl, hreplay hrow hr ha⟩
  | @moved _ row _ _ _ _ hrow hd hm _ =>
    obtain ⟨row₁, _, hrow₁, ht, _⟩ := hm.rowMoved
    obtain rfl : row = row₁ := Option.some.inj (hrow.symm.trans hrow₁)
    refine ⟨_, row, Or.inl rfl, ?_⟩
    cases hd with
    | recorded hid =>
      obtain ⟨hj, rfl⟩ := hfind hrow hid (of_decide_eq_true ha)
      cases ht with
      | record hs hi _ => exact ⟨hj, Or.inl ⟨hs, congrArg _ hi⟩⟩
    | unknown hid =>
      obtain ⟨hj, rfl⟩ := hfind hrow hid (of_decide_eq_true ha)
      cases ht with
      | unknown hs hi => exact ⟨hj, Or.inl ⟨hs, congrArg _ hi⟩⟩
    | notExecuted hid =>
      obtain ⟨hj, rfl⟩ := hfind hrow hid (of_decide_eq_true ha)
      cases ht with
      | notExecuted hs hi => exact ⟨hj, Or.inl ⟨hs, congrArg _ hi⟩⟩
    | _ => cases ha
  | @reported _ row _ _ _ hrow hr hm _ =>
    obtain ⟨row₁, _, hrow₁, ht, _⟩ := hm.rowMoved
    obtain rfl : row = row₁ := Option.some.inj (hrow.symm.trans hrow₁)
    refine ⟨_, row, Or.inr rfl, ?_⟩
    cases hr with
    | mk hid =>
      obtain ⟨hj, rfl⟩ := hfind hrow hid (of_decide_eq_true ha)
      cases ht with
      | record hs hi _ => exact ⟨hj, Or.inl ⟨hs, congrArg _ hi⟩⟩
  | raised _ _ => cases call <;> cases ha
  | dropped _ _ => cases call <;> cases ha
  | aborted _ _ _ _ => cases call <;> cases ha
  | _ => cases ha

theorem Issues.not_releases {claimToken : PyStr}
    (h : Issues j claimToken token e) : ¬ Releases j e := by
  obtain ⟨call, w, r, w'⟩ := e
  obtain ⟨c, p, k, o, t, rfl, rfl, _⟩ := h
  intro hr
  cases hr

/-- Tokens are fenced: one that is accepted was issued under the effect's
latest claim, and one whose attempt was declared not executed is never
accepted again. -/
structure TokensFenced (j : Text) (past : List Step) : Prop where
  latest : ∀ token pre e post, past = pre ++ e :: post → Accepts j token e → Fenced j token pre
  retired : ∀ claimToken token pre b mid r mid' e post,
    past = pre ++ b :: (mid ++ r :: (mid' ++ e :: post)) →
    Issues j claimToken token b → Releases j r → ¬ Accepts j token e

theorem trace_fenced {calls : List Call} (hrevive : ∀ e ∈ trace H calls, ¬ Revives e.before e.input)
    {pre post : List Step}
    (hcut : trace H calls = pre ++ e :: post) (ha : Accepts j token e) : Fenced j token pre := by
  obtain ⟨before, rfl, hbefore, hran⟩ := trace_cut hcut
  obtain ⟨db, row, hdb, hrow, hp⟩ := hran.presents_of_accepts ha
  have hevery := run_guarded before fun e he =>
    hrevive e (by rw [hcut]; exact List.mem_append_left _ he)
  rw [← hbefore] at hevery
  rcases hdb with rfl | rfl
  · exact (hevery.view 0 j row hrow).fenced token hp
  · exact (hevery.file j row hrow).fenced token hp

/-- Execution tokens are fenced by attempt, in every run without a
revival. -/
theorem tokens_fenced (H : Host) (calls : List Call)
    (hrevive : ∀ e ∈ trace H calls, ¬ Revives e.before e.input) (j : Text) :
    TokensFenced j (trace H calls) := by
  refine ⟨fun token pre e post hcut ha => trace_fenced hrevive hcut ha, ?_⟩
  intro claimToken token pre b mid r mid' e post heq hb hr ha
  have hcut : trace H calls = ((pre ++ b :: mid) ++ r :: mid') ++ e :: post := by
    rw [heq]
    simp
  obtain ⟨pre', b', post', claimToken', hsplit, _, hb', hpost'⟩ :=
    trace_fenced hrevive hcut ha
  have hne : b' ≠ r := fun h => hb'.not_releases (h ▸ hr)
  rcases List.append_eq_append_iff.mp hsplit with
    ⟨mids, hpre', hmids⟩ | ⟨mids, hpre', hmids⟩
  · -- the accepted token was issued after the release, so it is another one
    cases mids with
    | nil => exact hne (List.cons.inj hmids).1.symm
    | cons _ mids =>
      obtain ⟨rfl, rfl⟩ := List.cons.inj hmids
      have hagain : trace H calls
          = pre ++ b :: ((mid ++ r :: mids) ++ b' :: (post' ++ e :: post)) := by
        rw [heq]
        simp
      obtain ⟨c, p, k, o, t, hin, hout, _, _, rfl⟩ := hb
      obtain ⟨c', p', k', o', t', hin', hout', _, _, ht'⟩ := hb'
      exact begun_ne hagain ⟨⟨c, p, k, o, hin⟩, hout⟩
        ⟨⟨c', p', k', o', hin'⟩, hout'⟩ (Text.ext ht').symm
  · -- the release came after the token accepted was issued
    cases mids with
    | nil => exact hne (List.cons.inj hmids).1
    | cons _ mids =>
      obtain ⟨rfl, rfl⟩ := List.cons.inj hmids
      exact (hpost' r (by simp)).2 hr

/-- The sample effect, begun, declared not executed, and claimed again. -/
def Sample.retried : List Call :=
  Sample.started ++ [ .markExecutionFailure (Sample.ticket 1 1) .none true, .claim Sample.worker 60]

/-- The second attempt executes, and its token is presented. -/
def Sample.second : List Call :=
  Sample.retried ++ [Sample.beginning (Sample.ticket 3 2),
    .recordExecution Sample.effectId (Sample.host.uuid4 4).str Sample.result Sample.result]

theorem tokens_fenced_second : TokensFenced (Sample.host.uuid4 0)
      (trace Sample.host Sample.second) := by
  refine tokens_fenced Sample.host Sample.second (fun e he => ?_) _
  have hinput := Machine.input_mem_of_mem_trace _ he
  simp only [Sample.second, Sample.retried, Sample.started, List.cons_append,
    List.nil_append, List.mem_cons, List.not_mem_nil, or_false] at hinput
  rcases hinput with h | h | h | h | h | h | h | h <;> rw [h] <;> exact id

/-- The second attempt is reported failed before it begins, and the token of
the first is presented. -/
def Sample.revived : List Call :=
  Sample.retried ++ [ .markExecutionFailure (Sample.ticket 3 2) .none false,
    .recordExecution Sample.effectId (Sample.host.uuid4 2).str Sample.result Sample.result]

/-- The hole: a token whose attempt was declared not executed is accepted. -/
theorem fence_revived : ¬ TokensFenced (Sample.host.uuid4 0)
      (trace Sample.host Sample.revived) := by
  let issued := Machine.entry (step Sample.host)
    (Sample.beginning (Sample.ticket 1 1))
    (run Sample.host (Sample.started.take 3))
  let released := Machine.entry (step Sample.host)
    (.markExecutionFailure (Sample.ticket 1 1) .none true)
    (run Sample.host Sample.started)
  let accepted := Machine.entry (step Sample.host)
    (.recordExecution Sample.effectId (Sample.host.uuid4 2).str Sample.result Sample.result)
    (run Sample.host (Sample.revived.take 7))
  have hrun : issued.output = .ok (.token (Sample.host.uuid4 2))
      ∧ Releases (Sample.host.uuid4 0) released
      ∧ Accepts (Sample.host.uuid4 0) (Sample.host.uuid4 2).str accepted := by
    decide +kernel
  intro h
  exact h.retired (Sample.host.uuid4 1).str (Sample.host.uuid4 2).str
    (trace Sample.host (Sample.started.take 3)) issued [] released
    [Machine.entry (step Sample.host) (.claim Sample.worker 60)
      (run Sample.host (Sample.revived.take 5)),
      Machine.entry (step Sample.host) (.markExecutionFailure (Sample.ticket 3 2) .none false)
        (run Sample.host (Sample.revived.take 6))]
    accepted [] rfl
    ⟨Sample.ticket 1 1, _, _, _, Sample.host.uuid4 2, rfl, hrun.1, rfl, rfl, rfl⟩
    hrun.2.1 hrun.2.2

end Centinal26.Effects
