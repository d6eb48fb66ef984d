/-
Execution on expired authority.
-/
import Centinal26.Effects.Fencing

namespace Centinal26.Effects

open Py Steps

variable {H : Host}

def Deadline (s : IsoText) (x : Instant) : Prop :=
  fromisoformat s = .ok (.aware x)

/-- The stored authorization runs out at `x`. -/
def AuthorizedUntil (row : EffectRow) (x : Instant) : Prop :=
  ∃ a, row.authorizationJson = some a ∧ Deadline a.expiresAt x

def RequestedUntil (row : EffectRow) (x : Instant) : Prop :=
  ∃ s, row.requestJson.expiresAt = some s ∧ Deadline s x

/-- The authority for the effect is good at `t`. -/
def Unexpired (t : Instant) (row : EffectRow) : Prop :=
  (∃ x, AuthorizedUntil row x ∧ t < x)
    ∧ (row.requestJson.expiresAt = none ∨ ∃ x, RequestedUntil row x ∧ t < x)

/-- An execution to begin under a lease that ends after the authorization or
the request does. -/
def Overruns (w : World) : Call → Prop
  | .beginExecution c _ _ _ =>
    ∃ row, (w.view 0).effect? row.effectId = some row
      ∧ c.effectId = row.effectId.str ∧ claimIdentity row c = true
      ∧ row.state = .claimed
      ∧ ∃ lease, row.claimUntil = some lease
        ∧ ∃ x, (AuthorizedUntil row x ∨ RequestedUntil row x) ∧ x < lease
  | _ => False

-- == deadlines

variable {a : EffectAuthorization} {now : Instant} {row row' : EffectRow} {w : World}

theorem deadline_of_validFor
    {r : EffectRequest} (h : a.validFor H now r = .ok true) : ∃ x, Deadline a.expiresAt x := by
  unfold EffectAuthorization.validFor at h
  split at h
  · cases h
  · next expires hparsed =>
    cases expires with
    | aware x => exact ⟨x, hparsed⟩
    | naive x =>
      split at h
      · cases hsha : r.sha256 H with
        | error e =>
          rw [hsha] at h
          cases h
        | ok sha =>
          rw [hsha] at h
          change (if _ then _ else _) = _ at h
          split at h <;> cases h
      · cases h

theorem stored_expiresAt {stored : EffectAuthorization}
    (h : a.stored = .ok stored) : stored.expiresAt = a.expiresAt := by
  unfold EffectAuthorization.stored at h
  cases hc : roundTrip a.constraints with
  | error e =>
    rw [hc] at h
    cases h
  | ok c =>
    rw [hc] at h
    cases h
    rfl

theorem deadline_of_requestExpired {b : Bool} (h : requestExpired now row.requestJson = .ok b) :
    row.requestJson.expiresAt = none ∨ ∃ x, RequestedUntil row x := by
  unfold requestExpired at h
  split at h
  · next hnone => exact Or.inl hnone
  · next s hs =>
    refine Or.inr ?_
    cases hparsed : fromisoformat s with
    | error e =>
      rw [hparsed] at h
      cases h
    | ok d =>
      rw [hparsed] at h
      cases d with
      | aware x => exact ⟨x, s, hs, hparsed⟩
      | naive x => cases h

/-- The deadlines a row has: an approved effect has that of its authorization,
a claimed one that of its request besides. -/
structure Dated (row : EffectRow) : Prop where
  authorized : row.state ≠ .pendingAuthorization → row.state ≠ .denied → ∃ x, AuthorizedUntil row x
  requested : row.state = .claimed → row.requestJson.expiresAt = none ∨ ∃ x, RequestedUntil row x

theorem Transition.dated {mv : Move}
    (h : Transition H mv row row') (hd : Dated row) : Dated row' := by
  constructor
  · intro _ hn
    rcases h.decided with ⟨a, now, rfl⟩ | ⟨_, hs⟩ | ⟨hp, hn, hsame⟩
    · cases h with
      | approve _ hv hst =>
        obtain ⟨x, hx⟩ := deadline_of_validFor hv
        exact ⟨x, _, rfl, stored_expiresAt hst ▸ hx⟩
    · exact absurd hs hn
    · obtain ⟨x, a, ha, hx⟩ := hd.authorized hp hn
      exact ⟨x, a, hsame.trans ha, hx⟩
  · intro hs
    obtain ⟨c, rfl, _⟩ := h.claimed hs
    cases h with
    | claim _ he _ => exact deadline_of_requestExpired he

theorem Lapse.dated (h : Lapse H row row') (hd : Dated row) : Dated row' := by
  cases h with
  | none => exact hd
  | claim ht => exact ht.dated hd
  | execution ht => exact ht.dated hd

theorem RowWork.dated {past : List Step} {db : Db} {j : Text}
    {call : Call} {r : Except LedgerError Reply}
    (hI : ∀ row, db.effect? j = some row → Dated row)
    (h : RowWork H w past db j row' call r) : Dated row' := by
  cases h with
  | same hrow _ => exact hI _ hrow
  | fresh hf _ _ =>
    obtain ⟨_, _, _, _, _, _, _, rfl, _⟩ := hf
    exact ⟨fun h => absurd rfl h, fun h => by cases h⟩
  | moved _ hrow _ _ ht => exact ht.dated (hI _ hrow)
  | reported hrow _ _ ht => exact ht.dated (hI _ hrow)
  | aborted _ hrow _ _ ht => exact ht.dated (hI _ hrow)
  | lapsed hrow hl _ => exact hl.dated (hI _ hrow)
  | declined hrow hl _ ht => exact ht.dated (hl.dated (hI _ hrow))
  | granted _ hrow hl _ _ ht => exact ht.dated (hl.dated (hI _ hrow))

theorem run_dated (calls : List Call) :
    (run H calls).disk.Every fun db => ∀ j row, db.effect? j = some row → Dated row :=
  run_rows (C := fun _ => True) (R := fun _ _ row => Dated row)
    (fun _ _ _ _ _ _ hI h => h.dated hI) calls fun _ _ => trivial

-- == the claim

/-- An execution begun was begun on the row of its effect, claimed by the
caller under a lease running at the reading the call took. -/
theorem Ran.begun {w' : World} {c : EffectClaim} {p k o : PyStr} {token : Text}
    (h : Ran H w (.beginExecution c p k o) (.ok (.token token)) w') :
    ∃ row lease, (w.view 0).effect? row.effectId = some row
      ∧ c.effectId = row.effectId.str ∧ claimIdentity row c = true
      ∧ row.state = .claimed ∧ row.claimUntil = some lease
      ∧ H.clock w.ticks < lease := by
  cases h with
  | @moved _ row _ _ _ _ hrow hd hm _ =>
    obtain ⟨row₁, _, hrow₁, ht, _⟩ := hm.rowMoved
    obtain rfl : row = row₁ := Option.some.inj (hrow.symm.trans hrow₁)
    cases hd with
    | began hid hc =>
      cases ht with
      | begin hs hl hn _ => exact ⟨row, _, hrow, hid, hc, hs, hl, hn⟩

/-- Every execution is begun on authority that is good at the reading the call
compares its lease with. -/
def BeginsUnexpired (H : Host) (past : List Step) : Prop :=
  ∀ e ∈ past, ∀ c p k o token, e.input = .beginExecution c p k o → e.output = .ok (.token token) →
    ∃ row, (e.before.view 0).effect? row.effectId = some row ∧ c.effectId = row.effectId.str
      ∧ Unexpired (H.clock e.before.ticks) row

/-- No effect starts executing on expired authority, in every run without a
call under a lease that outlives it. -/
theorem begins_unexpired (H : Host) (calls : List Call)
    (hlease : ∀ e ∈ trace H calls, ¬ Overruns e.before e.input) :
    BeginsUnexpired H (trace H calls) := by
  intro e he c p k o token hin hout
  have hover := hlease e he
  obtain ⟨pre, post, hcut⟩ := List.append_of_mem he
  obtain ⟨before, _, hbefore, hran⟩ := trace_cut hcut
  have hdated := (run_dated before (H := H)).view 0
  rw [hin, hout] at hran
  rw [hin] at hover
  obtain ⟨row, lease, hrow, hid, hc, hs, hl, hn⟩ := hran.begun
  have hrow' := hrow
  rw [hbefore] at hrow'
  have hd := hdated _ row hrow'
  -- the lease runs, and it ends before either deadline
  have hlast : ∀ x, AuthorizedUntil row x ∨ RequestedUntil row x → H.clock e.before.ticks < x := by
    intro x hx
    by_contra hge
    exact hover ⟨row, hrow, hid, hc, hs, lease, hl, x, hx,
      Int.lt_of_le_of_lt (Int.not_lt.mp hge) hn⟩
  refine ⟨row, hrow, hid, ?_, ?_⟩
  · obtain ⟨x, hx⟩ := hd.authorized (by rw [hs]; nofun) (by rw [hs]; nofun)
    exact ⟨x, hx, hlast x (Or.inl hx)⟩
  · rcases hd.requested hs with hnone | ⟨x, hx⟩
    · exact Or.inl hnone
    · exact Or.inr ⟨x, hx, hlast x (Or.inr hx)⟩

theorem AuthorizedUntil.eq {x y : Instant} (h : AuthorizedUntil row x)
    (hy : (row.authorizationJson.map fun a => a.expiresAt.parsed)
      = some (some (.aware y))) : x = y := by
  obtain ⟨a, ha, hx⟩ := h
  rw [ha] at hy
  have hparsed : a.expiresAt.parsed = some (.aware y) := Option.some.inj hy
  unfold Deadline fromisoformat at hx
  rw [hparsed] at hx
  cases hx
  rfl

/-- The sample effect is begun under a lease of a minute, on an authorization
for an hour. -/
theorem begins_unexpired_started :
    BeginsUnexpired Sample.host (trace Sample.host Sample.started) := by
  refine begins_unexpired Sample.host Sample.started
    (forall_trace_concat (Sample.started.take 3) _ (fun e he => ?_) ?_)
  · have hinput := Machine.input_mem_of_mem_trace _ he
    simp only [Sample.started, List.take_succ_cons, List.take_zero,
      List.mem_cons, List.not_mem_nil, or_false] at hinput
    rcases hinput with h | h | h <;> rw [h] <;> exact id
  · have hrun : (((run Sample.host (Sample.started.take 3)).view 0).effect?
        (Sample.host.uuid4 0)).map (fun row => (row.claimUntil,
          row.authorizationJson.map fun a => a.expiresAt.parsed,
          row.requestJson.expiresAt))
        = some (some (Sample.newYear + 60000000),
          some (some (.aware (Sample.newYear + 3600000000))), none) := by
      decide +kernel
    simp only [Machine.entry]
    rintro ⟨row, hrow, hid, _, _, lease, hl, x, hx, hlt⟩
    obtain ⟨found, hfound, hcols⟩ := Option.map_eq_some_iff.mp hrun
    have hid' : row.effectId = Sample.host.uuid4 0 := Text.ext hid.symm
    rw [hid', hfound] at hrow
    obtain rfl : found = row := Option.some.inj hrow
    simp only [Prod.mk.injEq] at hcols
    obtain ⟨hlease, hauth, hrequest⟩ := hcols
    have hl' := Option.some.inj (hl.symm.trans hlease)
    rcases hx with hx | ⟨s, hs, _⟩
    · have hx' := hx.eq hauth
      rw [hl', hx'] at hlt
      exact absurd hlt (by decide)
    · rw [hrequest] at hs
      cases hs

/-- A machine whose clock advances ten minutes at every reading. -/
def Sample.slowHost : Host :=
  .sample fun n => Sample.newYear + 600000000 * n

/-- The sample effect, claimed for two hours of the one its authorization
lasts. -/
def Sample.late : List Call :=
  [.submit Sample.request 3, .authorize Sample.effectId Sample.authorization,
    .claim Sample.worker 7200, Sample.beginning (Sample.ticket 1 1)]

/-- The execution begins forty minutes after its authorization expired. -/
theorem begins_expired_late : (∀ m n, m ≤ n → Sample.slowHost.clock m ≤ Sample.slowHost.clock n)
      ∧ ¬ BeginsUnexpired Sample.slowHost (trace Sample.slowHost Sample.late) := by
  constructor
  · intro m n hle
    have hle' : (m : Int) ≤ (n : Int) := Int.ofNat_le.mpr hle
    exact Int.add_le_add_left (Int.mul_le_mul_of_nonneg_left hle' (by decide)) _
  · let begun := Machine.entry (step Sample.slowHost)
      (Sample.beginning (Sample.ticket 1 1))
      (run Sample.slowHost (Sample.late.take 3))
    have hrun : begun.output = .ok (.token (Sample.host.uuid4 2)) ∧ begun.before.ticks = 10
        ∧ ((begun.before.view 0).effect? (Sample.host.uuid4 0)).map
          (fun row => row.authorizationJson.map fun a => a.expiresAt.parsed)
          = some (some (some (.aware (Sample.newYear + 3600000000)))) := by
      decide +kernel
    obtain ⟨hout, hticks, hauth⟩ := hrun
    have hmem : begun ∈ trace Sample.slowHost Sample.late :=
      mem_trace_concat (Sample.late.take 3) _
    intro h
    obtain ⟨row, hrow, hid, ⟨x, hx, hlt⟩, _⟩ :=
      h begun hmem _ _ _ _ _ rfl hout
    have hid' : row.effectId = Sample.host.uuid4 0 := Text.ext hid.symm
    rw [hid'] at hrow
    rw [hrow] at hauth
    have hx' := hx.eq (Option.some.inj hauth)
    rw [hx', hticks] at hlt
    exact absurd hlt (by decide)

end Centinal26.Effects
