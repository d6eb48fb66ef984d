/-
The epistemic promotion gate: how strongly a claim may be represented at most, from the evidence
on record for it.
-/
import Centinal26.Py.Typed
import Mathlib.Data.List.Dedup
import Mathlib.Data.List.Perm.Subperm
import Mathlib.Order.MinMax

namespace Centinal26.Claims.Gate

open Py

-- == hashing

/-- A value that can be hashed, up to `==`: a number is its value, and `True` is one. -/
inductive Hashed : Type
  | none
  | str (s : PyStr)
  | number (value : Rat)
  | nan
  | infinity
  | negInfinity
deriving DecidableEq

def hashed : Json → Option Hashed
  | .null => some .none
  | .bool b => some (.number (if b then 1 else 0))
  | .int n => some (.number n)
  | .float .nan => some .nan
  | .float .infinity => some .infinity
  | .float .negInfinity => some .negInfinity
  | .float (.finite lit) => some (.number lit.value)
  | .str s => some (.str s)
  | _ => Option.none

-- == tables

/-- `LEVELS`, by their numbers. -/
def levels : List String :=
  ["UNKNOWN", "HYPOTHESIS", "PLAUSIBLE", "SUPPORTED", "STRONGLY_SUPPORTED",
    "ESTABLISHED_WITHIN_SCOPE"]

/-- `ESTABLISHED_WITHIN_SCOPE`. -/
def established : Nat := 5

def validDimensions : List PyStr :=
  ["PASS", "FAIL", "REVIEW", "BLOCKED", "UNKNOWN", "NOT_APPLICABLE"].map py

def evidenceWeight : List (PyStr × Nat) :=
  [(py "USER_REPORTED", 1), (py "DERIVED", 2), (py "DIRECT_SOURCE", 3), (py "REPRODUCED", 3),
    (py "INDEPENDENT_DIRECT", 4), (py "EMPIRICAL", 4), (py "SCIENTIFIC_TEST", 4)]

def domainGate : List (PyStr × Option PyStr) :=
  [(py "SOURCE_SEMANTICS", some (py "source_semantics_status")),
    (py "SOFTWARE_BEHAVIOR", some (py "reproduction_status")),
    (py "DEVICE_BEHAVIOR", some (py "device_validation_status")),
    (py "EMPIRICAL", some (py "empirical_status")),
    (py "SCIENTIFIC", some (py "scientific_status")),
    (py "HISTORICAL_EVENT", some (py "historical_verification_status")),
    (py "ATTRIBUTION", some (py "attribution_status")), (py "GENERAL", none)]

-- == records

/-- The members of a claim record, where they are there. -/
structure ClaimRecord where
  claimId : Option Json
  statement : Option Json
  scope : Option Json
  claimKind : Option Json
  currentEpistemicStatus : Option Json
  dimensions : Option Json
  support : Option Json
  counterevidence : Option Json
  unresolvedContradictions : Option Json

def ClaimRecord.of (c : Members) : ClaimRecord where
  claimId := getItem? c (py "claim_id")
  statement := getItem? c (py "statement")
  scope := getItem? c (py "scope")
  claimKind := getItem? c (py "claim_kind")
  currentEpistemicStatus := getItem? c (py "current_epistemic_status")
  dimensions := getItem? c (py "dimensions")
  support := getItem? c (py "support")
  counterevidence := getItem? c (py "counterevidence")
  unresolvedContradictions := getItem? c (py "unresolved_contradictions")

inductive GateError : Type
  /-- `LedgerError` -/
  | ledger (message : PyStr)
  | typeError
  | attributeError

variable (str : Json → PyStr)

def ledgerError {α : Type} (c : ClaimRecord) (message : PyStr) : Except GateError α :=
  .error (.ledger ((c.claimId.map str).getD (py "<unknown>") ++ py ": " ++ message))

/-- `value in names`, of a set or a dictionary of strings. -/
def isIn (value : Json) (names : List PyStr) : Except GateError Bool :=
  match hashed value with
  | some (.str s) => .ok (decide (s ∈ names))
  | some _ => .ok false
  | none => .error .typeError

def hasKey (ev : Json) (key : String) : Except GateError Bool :=
  match ev with
  | .obj members => .ok (getItem? members (py key)).isSome
  | .arr items => .ok (items.any fun item => item.isStr (py key))
  | .str s => .ok (decide (py key <:+: s))
  | _ => .error .typeError

/-- What the loop over `a + b` goes through. -/
def concat : Json → Json → Except GateError (List Json)
  | .arr xs, .arr ys => .ok (xs ++ ys)
  | .str s, .str t => .ok ((s ++ t).map fun c => .str [c])
  | _, _ => .error .typeError

/-- The pair of one piece of evidence, once it is checked. -/
def checkEvidence (c : ClaimRecord) (ev : Json) : Except GateError (Hashed × Hashed) := do
  let identified ← hasKey ev "evidence_id"
  let grouped ← hasKey ev "independence_group"
  let classed ← hasKey ev "class"
  if !identified || !grouped || !classed then ledgerError str c (py "malformed evidence")
  else
    match ev with
    | .obj members =>
      if !(← isIn (field members "class") (evidenceWeight.map Prod.fst)) then
        ledgerError str c (py "unknown evidence class " ++ str (field members "class"))
      else
        match hashed (field members "evidence_id"), hashed (field members "independence_group") with
        | some id, some group => .ok (id, group)
        | _, _ => .error .typeError
    | _ => .error .typeError

def checkAll (c : ClaimRecord) : List (Hashed × Hashed) → List Json → Except GateError Unit
  | _, [] => .ok ()
  | seen, ev :: rest => do
    let pair ← checkEvidence str c ev
    if pair ∈ seen then ledgerError str c (py "duplicate evidence")
    else checkAll c (pair :: seen) rest

def checkDimensions (c : ClaimRecord) : Members → Except GateError Unit
  | [] => .ok ()
  | (name, status) :: rest => do
    if !(← isIn status validDimensions) then
      ledgerError str c (py "invalid dimension " ++ name ++ py "=" ++ str status)
    else checkDimensions c rest

/-- The first of the required members that is missing. -/
def missing? (c : ClaimRecord) : Option String :=
  ([("claim_id", c.claimId), ("statement", c.statement), ("scope", c.scope),
    ("claim_kind", c.claimKind), ("current_epistemic_status", c.currentEpistemicStatus),
    ("dimensions", c.dimensions)].find? fun m => m.2.isNone).map Prod.fst

def validateClaim (c : ClaimRecord) : Except GateError Unit :=
  match missing? c with
  | some key => ledgerError str c (py "missing " ++ py key)
  | none => do
    let kind := c.claimKind.getD .null
    if !(← isIn kind (domainGate.map Prod.fst)) then
      ledgerError str c (py "unknown claim_kind " ++ str kind)
    else do
      let current := c.currentEpistemicStatus.getD .null
      if !(← isIn current (py "REJECTED" :: levels.map py)) then
        ledgerError str c (py "invalid current_epistemic_status " ++ str current)
      else
        match c.dimensions with
        | some (.obj dimensions) => do
          checkDimensions str c dimensions
          let evidence ← concat (c.support.getD (.arr [])) (c.counterevidence.getD (.arr []))
          checkAll str c [] evidence
        | _ => .error .attributeError

-- == ceiling

/-- `e.get("integrity", "UNKNOWN") in {"PASS", "NOT_APPLICABLE"}`. -/
def hasIntegrity (e : Members) : Except GateError Bool :=
  isIn ((getItem? e (py "integrity")).getD (.str (py "UNKNOWN"))) [py "PASS", py "NOT_APPLICABLE"]

/-- The pieces of evidence of a list that has been checked. -/
def objects : Option Json → List Members
  | some (.arr items) => items.filterMap fun item =>
    match item with
    | .obj members => some members
    | _ => none
  | _ => []

def usable : List Members → Except GateError (List Members)
  | [] => .ok []
  | e :: rest => do
    if ← hasIntegrity e then .ok (e :: (← usable rest)) else usable rest

def usableSupport (c : ClaimRecord) : Except GateError (List Members) := usable (objects c.support)

def decisiveCounterevidence : List Members → Except GateError Bool
  | [] => .ok false
  | e :: rest =>
    match field e "decisive_against_promotion" with
    | .bool true => do
      if ← hasIntegrity e then .ok true else decisiveCounterevidence rest
    | _ => decisiveCounterevidence rest

def weight (e : Members) : Nat :=
  (((field e "class").str?).bind fun s => getItem? evidenceWeight s).getD 0

def strongest (support : List Members) : Nat := (support.map weight).foldr max 0

/-- `{e["independence_group"] for e in support}`. -/
def groups (support : List Members) : List (Option Hashed) :=
  (support.map fun e => hashed (field e "independence_group")).dedup

def gateName (c : ClaimRecord) : Option PyStr :=
  ((c.claimKind.bind Json.str?).bind fun kind => getItem? domainGate kind).join

/-- `dims.get(name) in statuses`, of dimensions that have been checked. -/
def statusIn (c : ClaimRecord) (name : PyStr) (statuses : List String) : Bool :=
  match c.dimensions with
  | some (.obj dims) => statuses.any fun s => ((getItem? dims name).getD .null).isStr (py s)
  | _ => false

/-- What `compute_ceiling` returns: a level by its number, or one of two words. -/
inductive Ceiling : Type
  | level (n : Nat)
  | rejected
  | invalidRejection
deriving DecidableEq

/-- `gate_name is not None and dims.get(gate_name) in statuses`. -/
def gateIn (c : ClaimRecord) (statuses : List String) : Bool :=
  (gateName c).any fun name => statusIn c name statuses

def independentPass (c : ClaimRecord) : Bool :=
  statusIn c (py "independent_verification_status") ["PASS"]

def gatePass (c : ClaimRecord) : Bool := (gateName c).isNone || gateIn c ["PASS", "NOT_APPLICABLE"]

def contradicted (c : ClaimRecord) : Bool :=
  ((c.unresolvedContradictions).getD (.arr [])).truthy

/-- The ceiling as it is raised and capped: the evidence is there, as strong as this, in so many
groups. -/
def levelOf (there : Bool) (strongest groups : Nat) (independent gate closed contradicted : Bool) :
    Nat :=
  let ceiling := if there then 2 else 0
  let ceiling := if 3 ≤ strongest then max ceiling 3 else ceiling
  let ceiling :=
    if independent && (decide (2 ≤ groups) || decide (4 ≤ strongest)) then max ceiling 4
    else ceiling
  let ceiling :=
    if independent && gate && decide (2 ≤ groups) && !contradicted then max ceiling 5 else ceiling
  let ceiling := if closed then min ceiling 2 else ceiling
  if contradicted then min ceiling 3 else ceiling

def isRejected (c : ClaimRecord) : Bool :=
  (c.currentEpistemicStatus.getD .null).isStr (py "REJECTED")

def computeCeiling (c : ClaimRecord) : Except GateError Ceiling := do
  validateClaim str c
  if isRejected c then
    let decisive ← decisiveCounterevidence (objects c.counterevidence)
    if !(decisive || gateIn c ["FAIL"]) then .ok .invalidRejection else .ok .rejected
  else do
    let support ← usableSupport c
    .ok (.level (levelOf (!support.isEmpty) (strongest support) (groups support).length
      (independentPass c) (gatePass c) (gateIn c ["FAIL", "BLOCKED"]) (contradicted c)))

-- == levels

variable {p p' : Prop} {x x' k s g : Nat} {there closed contra : Bool}

theorem raise_mono [Decidable p] [Decidable p'] (hp : p → p')
    (hx : x ≤ x') : (if p then max x k else x) ≤ if p' then max x' k else x' := by
  by_cases h : p
  · rw [if_pos h, if_pos (hp h)]
    exact max_le_max hx (le_refl k)
  · rw [if_neg h]
    split
    · exact hx.trans (le_max_left _ _)
    · exact hx

theorem cap_mono [Decidable p] [Decidable p'] (hp : p' → p)
    (hx : x ≤ x') : (if p then min x k else x) ≤ if p' then min x' k else x' := by
  by_cases h : p'
  · rw [if_pos h, if_pos (hp h)]
    exact min_le_min hx (le_refl k)
  · rw [if_neg h]
    split
    · exact (min_le_left _ _).trans hx
    · exact hx

theorem levelOf_mono {there' independent gate gate' closed' contra' : Bool}
    {s' g' : Nat} (hthere : there = true → there' = true) (hs : s ≤ s') (hg : g ≤ g')
    (hgate : gate = true → gate' = true) (hclosed : closed' = true → closed = true)
    (hcontra : contra' = true → contra = true) : levelOf there s g independent gate closed contra
      ≤ levelOf there' s' g' independent gate' closed' contra' := by
  unfold levelOf
  have hbase : (if there = true then 2 else 0) ≤ if there' = true then 2 else 0 := by
    split
    · next h => rw [if_pos (hthere h)]
    · exact Nat.zero_le _
  refine cap_mono hcontra (cap_mono hclosed (raise_mono (fun h => ?_) (raise_mono (fun h => ?_)
    (raise_mono (fun h => h.trans hs) hbase))))
  · simp only [Bool.and_eq_true, decide_eq_true_eq, Bool.not_eq_true'] at h ⊢
    refine ⟨⟨⟨h.1.1.1, hgate h.1.1.2⟩, h.1.2.trans hg⟩, ?_⟩
    by_contra hnot
    rw [hcontra (Bool.not_eq_false _ ▸ hnot)] at h
    cases h.2
  · simp only [Bool.and_eq_true, Bool.or_eq_true, decide_eq_true_eq] at h ⊢
    exact ⟨h.1, h.2.imp (fun h => h.trans hg) fun h => h.trans hs⟩

theorem levelOf_established {independent gate : Bool} (hopen : gate = true → closed = false) :
    levelOf there s g independent gate closed contra = established
      ↔ independent = true ∧ gate = true ∧ 2 ≤ g ∧ contra = false := by
  unfold levelOf established
  dsimp only
  -- up to the rule for five, what is raised stays below it
  have htwo : (if there = true then (2 : Nat) else 0) ≤ 2 := by split <;> decide
  generalize (if there = true then (2 : Nat) else 0) = two at htwo ⊢
  have hthree : (if 3 ≤ s then max two 3 else two) ≤ 3 := by split <;> omega
  generalize (if 3 ≤ s then max two 3 else two) = three at hthree ⊢
  have hfour : (if (independent && (decide (2 ≤ g) || decide (4 ≤ s))) = true then max three 4
      else three) ≤ 4 := by split <;> omega
  generalize (if (independent && (decide (2 ≤ g) || decide (4 ≤ s))) = true then max three 4
      else three) = four at hfour ⊢
  by_cases hall : (independent && gate && decide (2 ≤ g) && !contra) = true
  · rw [if_pos hall]
    simp only [Bool.and_eq_true, decide_eq_true_eq, Bool.not_eq_true'] at hall
    obtain ⟨⟨⟨hindependent, hgate⟩, hgroups⟩, hcontra⟩ := hall
    rw [hopen hgate, hcontra, if_neg Bool.false_ne_true, if_neg Bool.false_ne_true]
    exact iff_of_true (by omega) ⟨hindependent, hgate, hgroups, rfl⟩
  · rw [if_neg hall]
    refine iff_of_false (fun h => ?_) fun h => hall ?_
    · split at h <;> split at h <;> omega
    · simp only [Bool.and_eq_true, decide_eq_true_eq, Bool.not_eq_true']
      exact ⟨⟨⟨h.1, h.2.1⟩, h.2.2.1⟩, h.2.2.2⟩

-- == evidence

theorem weight_le {support : List Members} {e : Members} (h : e ∈ support) :
    weight e ≤ strongest support := by
  unfold strongest
  induction support with
  | nil => cases h
  | cons first rest ih =>
    rw [List.map_cons, List.foldr_cons]
    rcases List.mem_cons.mp h with rfl | h
    · exact le_max_left _ _
    · exact (ih h).trans (le_max_right _ _)

theorem strongest_le {support : List Members} {n : Nat} (h : ∀ e ∈ support, weight e ≤ n) :
    strongest support ≤ n := by
  unfold strongest
  induction support with
  | nil => exact Nat.zero_le n
  | cons first rest ih =>
    obtain ⟨hfirst, hrest⟩ := List.forall_mem_cons.mp h
    rw [List.map_cons, List.foldr_cons]
    exact max_le hfirst (ih hrest)

section Support

variable {support support' : List Members}

theorem strongest_subset (h : support ⊆ support') : strongest support ≤ strongest support' :=
  strongest_le fun _ he => weight_le (h he)

theorem groups_subset (h : support ⊆ support') :
    (groups support).length ≤ (groups support').length := by
  unfold groups
  refine ((List.nodup_dedup _).subperm fun group hgroup => ?_).length_le
  rw [List.mem_dedup] at hgroup ⊢
  exact List.map_subset _ h hgroup

theorem two_groups : 2 ≤ (groups support).length ↔ ∃ e ∈ support, ∃ e' ∈ support,
      hashed (field e "independence_group") ≠ hashed (field e' "independence_group") := by
  constructor
  · intro h
    obtain ⟨x, y, rest, hgroups⟩ : ∃ x y rest, groups support = x :: y :: rest := by
      cases hg : groups support with
      | nil =>
        rw [hg] at h
        cases h
      | cons x more =>
        cases more with
        | nil =>
          rw [hg] at h
          exact absurd h (by simp)
        | cons y rest => exact ⟨x, y, rest, rfl⟩
    have hmem : ∀ z ∈ groups support, ∃ e ∈ support, hashed (field e "independence_group") = z :=
      fun z hz => List.mem_map.mp (List.mem_dedup.mp hz)
    obtain ⟨e, he, hx⟩ := hmem x (by rw [hgroups]; exact List.mem_cons_self)
    obtain ⟨e', he', hy⟩ :=
      hmem y (by rw [hgroups]; exact List.mem_cons_of_mem _ List.mem_cons_self)
    refine ⟨e, he, e', he', ?_⟩
    rw [hx, hy]
    have hnodup : (x :: y :: rest).Nodup := hgroups ▸ List.nodup_dedup _
    exact fun heq => (List.nodup_cons.mp hnodup).1 (heq ▸ List.mem_cons_self)
  · rintro ⟨e, he, e', he', hne⟩
    have hpair : [hashed (field e "independence_group"),
        hashed (field e' "independence_group")].Nodup := by simp [hne]
    refine (hpair.subperm fun z hz => ?_).length_le
    rw [groups, List.mem_dedup]
    rcases List.mem_cons.mp hz with rfl | hz
    · exact List.mem_map_of_mem he
    · rw [List.mem_singleton.mp hz]
      exact List.mem_map_of_mem he'

theorem usable_append (xs ys : List Members) : usable (xs ++ ys)
    = (do .ok ((← usable xs) ++ (← usable ys)) : Except GateError (List Members)) := by
  induction xs with
  | nil =>
    show usable ys = (usable ys >>= fun us => .ok us)
    cases usable ys <;> rfl
  | cons x xs ih =>
    rw [List.cons_append, usable, usable, ih]
    cases hasIntegrity x with
    | error e => rfl
    | ok b =>
      cases b <;> cases usable xs <;> cases usable ys <;> rfl

theorem usable_insert {xs ys : List Members} {e : Members} {us us' : List Members}
    (h : usable (xs ++ ys) = .ok us) (h' : usable (xs ++ e :: ys) = .ok us') :
    us ⊆ us' ∧ (hasIntegrity e ≠ .ok true → us' = us) := by
  rw [usable_append] at h h'
  obtain ⟨vs, hvs, h⟩ := of_bind_ok h
  obtain ⟨ws, hws, h⟩ := of_bind_ok h
  obtain ⟨vs', hvs', h'⟩ := of_bind_ok h'
  obtain ⟨ws', hws', h'⟩ := of_bind_ok h'
  rw [hvs] at hvs'
  cases hvs'
  cases h
  cases h'
  rw [usable] at hws'
  obtain ⟨b, hb, hws'⟩ := of_bind_ok hws'
  cases b with
  | false =>
    rw [if_neg Bool.false_ne_true, hws] at hws'
    cases hws'
    exact ⟨fun _ hx => hx, fun _ => rfl⟩
  | true =>
    rw [if_pos rfl, hws] at hws'
    cases hws'
    refine ⟨fun x hx => ?_, fun hnot => absurd hb hnot⟩
    rcases List.mem_append.mp hx with hx | hx
    · exact List.mem_append_left _ hx
    · exact List.mem_append_right _ (List.mem_cons_of_mem _ hx)

end Support

theorem objects_append (xs ys : List Json) :
    objects (some (.arr (xs ++ ys))) = objects (some (.arr xs)) ++ objects (some (.arr ys)) :=
  List.filterMap_append ..

theorem objects_cons (e : Members) (ys : List Json) :
    objects (some (.arr (.obj e :: ys))) = e :: objects (some (.arr ys)) := rfl

-- == ceilings

section Ceilings

variable {str : Json → PyStr} {c c' : ClaimRecord}

def levelWith (c : ClaimRecord) (support : List Members) : Nat :=
  levelOf (!support.isEmpty) (strongest support) (groups support).length (independentPass c)
    (gatePass c) (gateIn c ["FAIL", "BLOCKED"]) (contradicted c)

variable {n n' : Nat} {xs : List Json} {name : PyStr} {dims : Members} {status : String}

theorem computeCeiling_level (h : computeCeiling str c = .ok (.level n)) :
    ∃ support, usableSupport c = .ok support ∧ n = levelWith c support := by
  unfold computeCeiling at h
  obtain ⟨_, -, h⟩ := of_bind_ok h
  split at h
  · obtain ⟨decisive, -, h⟩ := of_bind_ok h
    split at h <;> cases h
  · obtain ⟨support, hsupport, h⟩ := of_bind_ok h
    cases h
    exact ⟨support, hsupport, rfl⟩

/-- Of records that differ in their evidence and are alike otherwise, the one with more of it
has the higher ceiling. -/
theorem level_subset {support support' : List Members} (h : support ⊆ support')
    (hindependent : independentPass c' = independentPass c)
    (hgate : gatePass c = true → gatePass c' = true)
    (hclosed : gateIn c' ["FAIL", "BLOCKED"] = true → gateIn c ["FAIL", "BLOCKED"] = true)
    (hcontra : contradicted c' = true → contradicted c = true) :
    levelWith c support ≤ levelWith c' support' := by
  unfold levelWith
  rw [hindependent]
  refine levelOf_mono (fun hthere => ?_) (strongest_subset h) (groups_subset h) hgate hclosed
    hcontra
  cases support with
  | nil => cases hthere
  | cons e rest =>
    cases support' with
    | nil => cases h List.mem_cons_self
    | cons e' rest' => rfl

def items : Option Json → Option (List Json)
  | none => some []
  | some (.arr xs) => some xs
  | _ => none

theorem objects_items {v : Option Json} (h : items v = some xs) :
    objects v = objects (some (.arr xs)) := by
  unfold items at h
  split at h
  · cases h
    rfl
  · cases h
    rfl
  · cases h

/-- Something is added to the record, or the gate of its kind goes from open to shut, that can
only speak against the claim. -/
inductive Weakens (c : ClaimRecord) : ClaimRecord → Prop
  | counterevidence {xs ys : List Json} {e : Json} (h : items c.counterevidence = some (xs ++ ys)) :
      Weakens c { c with counterevidence := some (.arr (xs ++ e :: ys)) }
  | contradiction {xs ys : List Json} {x : Json}
      (h : items c.unresolvedContradictions = some (xs ++ ys)) :
      Weakens c { c with unresolvedContradictions := some (.arr (xs ++ x :: ys)) }
  | support {xs ys : List Json} {e : Members} (h : items c.support = some (xs ++ ys))
      (he : hasIntegrity e ≠ .ok true) :
      Weakens c { c with support := some (.arr (xs ++ .obj e :: ys)) }
  | gate {dims dims' : Members} {name : PyStr} {status : String} (hname : gateName c = some name)
      (hdims : c.dimensions = some (.obj dims)) (hopen : getItem? dims name = some (.str (py "PASS")))
      (hstatus : status ∈ ["FAIL", "BLOCKED", "REVIEW", "UNKNOWN"])
      (hshut : getItem? dims' name = some (.str (py status)))
      (hframe : ∀ k, k ≠ name → getItem? dims' k = getItem? dims k) :
      Weakens c { c with dimensions := some (.obj dims') }

/-- A usable piece of support is added. -/
inductive Strengthens (c : ClaimRecord) : ClaimRecord → Prop
  | support {xs ys : List Json} {e : Members} (h : items c.support = some (xs ++ ys))
      (he : hasIntegrity e = .ok true) :
      Strengthens c { c with support := some (.arr (xs ++ .obj e :: ys)) }

theorem usable_added {ys : List Json} {e : Members} {us us' : List Members}
    (h : items c.support = some (xs ++ ys)) (hus : usableSupport c = .ok us)
    (hus' : usableSupport { c with support := some (.arr (xs ++ .obj e :: ys)) } = .ok us') :
    us ⊆ us' ∧ (hasIntegrity e ≠ .ok true → us' = us) := by
  unfold usableSupport at hus hus'
  rw [objects_items h, objects_append] at hus
  dsimp only at hus'
  rw [objects_append, objects_cons] at hus'
  exact usable_insert hus hus'

theorem strengthens_mono (h : Strengthens c c')
    (hn : computeCeiling str c = .ok (.level n)) (hn' : computeCeiling str c' = .ok (.level n')) :
    n ≤ n' := by
  obtain ⟨us, hus, rfl⟩ := computeCeiling_level hn
  obtain ⟨us', hus', rfl⟩ := computeCeiling_level hn'
  cases h with
  | support h he => exact level_subset (usable_added h hus hus').1 rfl id id id

theorem gateName_ne (h : gateName c = some name) : py "independent_verification_status" ≠ name := by
  have hall : ∀ m ∈ domainGate, m.2 ≠ some (py "independent_verification_status") := by
    decide +kernel
  unfold gateName at h
  obtain ⟨kind, -, hkind⟩ := Option.bind_eq_some_iff.mp (Option.join_eq_some_iff.mp h)
  obtain ⟨m, hm, hgate⟩ := Option.map_eq_some_iff.mp hkind
  rintro rfl
  exact hall m (List.mem_of_find?_eq_some hm) hgate

theorem statusIn_of
    (hdims : c.dimensions = some (.obj dims)) (h : getItem? dims name = some (.str (py status)))
    (statuses : List String) : statusIn c name statuses = true ↔ status ∈ statuses := by
  unfold statusIn
  rw [hdims]
  dsimp only
  rw [h, List.any_eq_true]
  simp only [Option.getD_some, Json.isStr_str, decide_eq_true_eq, py_inj]
  exact ⟨fun ⟨_, hmem, heq⟩ => heq ▸ hmem, fun hmem => ⟨_, hmem, rfl⟩⟩

theorem gateIn_of (hname : gateName c = some name) (hdims : c.dimensions = some (.obj dims))
    (h : getItem? dims name = some (.str (py status))) (statuses : List String) :
    gateIn c statuses = true ↔ status ∈ statuses := by
  unfold gateIn
  rw [hname]
  exact statusIn_of hdims h statuses

theorem weakens_mono (h : Weakens c c')
    (hn : computeCeiling str c = .ok (.level n)) (hn' : computeCeiling str c' = .ok (.level n')) :
    n' ≤ n := by
  obtain ⟨us, hus, rfl⟩ := computeCeiling_level hn
  obtain ⟨us', hus', rfl⟩ := computeCeiling_level hn'
  cases h with
  | counterevidence h =>
    rw [show us' = us from Except.ok.inj (hus'.symm.trans hus)]
    exact level_subset (List.Subset.refl _) rfl id id id
  | @contradiction xs ys x h =>
    rw [show us' = us from Except.ok.inj (hus'.symm.trans hus)]
    refine level_subset (List.Subset.refl _) rfl id id fun _ => ?_
    unfold contradicted
    cases xs <;> rfl
  | support h he =>
    rw [(usable_added h hus hus').2 he]
    exact level_subset (List.Subset.refl _) rfl id id id
  | @gate dims dims' name status hname hdims hopen hstatus hshut hframe =>
    rw [show us' = us from Except.ok.inj (hus'.symm.trans hus)]
    have hopened := gateIn_of hname hdims hopen
    refine level_subset (List.Subset.refl _) ?_ (fun _ => ?_) (fun hclosed => ?_) id
    · unfold independentPass statusIn
      rw [hdims]
      dsimp only
      rw [hframe _ (gateName_ne hname)]
    · unfold gatePass
      rw [(hopened _).mpr (by decide), Bool.or_true]
    · exact absurd ((hopened _).mp hclosed) (by decide)

-- == established

/-- The support has two pieces with different identifiers and of different groups. -/
def TwoIndependent (support : List Members) : Prop :=
  ∃ e ∈ support, ∃ e' ∈ support, hashed (field e "evidence_id") ≠ hashed (field e' "evidence_id")
      ∧ hashed (field e "independence_group") ≠ hashed (field e' "independence_group")

/-- Counterevidence that is usable speaks decisively against the claim. -/
def Decisive (c : ClaimRecord) : Prop :=
  ∃ e ∈ objects c.counterevidence,
    field e "decisive_against_promotion" = .bool true ∧ hasIntegrity e = .ok true

structure Established (c : ClaimRecord) : Prop where
  independent : independentPass c = true
  gate : gatePass c = true
  consistent : contradicted c = false
  uncontested : ¬ Decisive c
  twofold : ∃ support, usableSupport c = .ok support ∧ TwoIndependent support

/-- All rules for the highest level are met, which count the groups alone. -/
structure Promoted (c : ClaimRecord) : Prop where
  independent : independentPass c = true
  gate : gatePass c = true
  consistent : contradicted c = false
  grouped : ∃ support, usableSupport c = .ok support ∧ ∃ e ∈ support, ∃ e' ∈ support,
      hashed (field e "independence_group") ≠ hashed (field e' "independence_group")

theorem not_closed (h : gatePass c = true) : gateIn c ["FAIL", "BLOCKED"] = false := by
  unfold gatePass gateIn at h
  unfold gateIn
  cases hname : gateName c with
  | none => rfl
  | some name =>
    rw [hname] at h
    unfold statusIn at h ⊢
    cases hdims : c.dimensions with
    | none => rfl
    | some v =>
      rw [hdims] at h
      cases v with
      | obj dims =>
        change ((["PASS", "NOT_APPLICABLE"] : List String).any fun s =>
          ((getItem? dims name).getD .null).isStr (py s)) = true at h
        obtain ⟨s, hs, heq⟩ := List.any_eq_true.mp h
        refine Bool.eq_false_iff.mpr fun hclosed => ?_
        obtain ⟨t, ht, heq'⟩ := List.any_eq_true.mp hclosed
        cases hv : (getItem? dims name).getD .null with
        | str status =>
          rw [hv, Json.isStr_str, decide_eq_true_eq] at heq heq'
          have hst : s = t := py_inj.mp (heq.symm.trans heq')
          subst hst
          simp only [List.mem_cons, List.not_mem_nil, or_false] at hs ht
          rcases hs with rfl | rfl <;> simp at ht
        | _ =>
          rw [hv] at heq
          cases heq
      | _ => rfl

theorem established_iff (hvalid : validateClaim str c = .ok ()) (hrejected : isRejected c = false) :
    computeCeiling str c = .ok (.level established) ↔ Promoted c := by
  have hrun : computeCeiling str c
      = (usableSupport c >>= fun support => .ok (.level (levelWith c support))) := by
    unfold computeCeiling
    rw [hvalid, bind_ok_eq, hrejected, if_neg Bool.false_ne_true]
    rfl
  rw [hrun]
  cases hsupport : usableSupport c with
  | error e =>
    refine iff_of_false nofun ?_
    rintro ⟨-, -, -, support, h, -⟩
    rw [hsupport] at h
    cases h
  | ok support =>
    rw [bind_ok_eq, Except.ok.injEq, Ceiling.level.injEq, levelWith,
      levelOf_established not_closed, two_groups]
    constructor
    · rintro ⟨hindependent, hgate, hgroups, hcontra⟩
      exact ⟨hindependent, hgate, hcontra, support, hsupport, hgroups⟩
    · rintro ⟨hindependent, hgate, hcontra, support', h, hgroups⟩
      rw [hsupport] at h
      cases h
      exact ⟨hindependent, hgate, hgroups, hcontra⟩

/-- The ceiling is monotone; and what is established is what may be, exactly if a claim that meets
the rules has no decisive counterevidence and two independent pieces of support. -/
theorem ceiling_iff (str : Json → PyStr) (c : ClaimRecord) (hvalid : validateClaim str c = .ok ())
    (hrejected : isRejected c = false) :
    ((∀ c' n n', Weakens c c' → computeCeiling str c = .ok (.level n) →
          computeCeiling str c' = .ok (.level n') → n' ≤ n)
        ∧ (∀ c' n n', Strengthens c c' → computeCeiling str c = .ok (.level n) →
          computeCeiling str c' = .ok (.level n') → n ≤ n')
        ∧ (computeCeiling str c = .ok (.level established) → Established c))
      ↔ (Promoted c → ¬ Decisive c
        ∧ ∃ support, usableSupport c = .ok support ∧ TwoIndependent support) := by
  rw [established_iff hvalid hrejected]
  constructor
  · intro h hpromoted
    obtain ⟨-, -, -, huncontested, htwofold⟩ := h.2.2 hpromoted
    exact ⟨huncontested, htwofold⟩
  · intro h
    refine ⟨fun _ _ _ hw hn hn' => weakens_mono hw hn hn',
      fun _ _ _ hs hn hn' => strengthens_mono hs hn hn', fun hpromoted => ?_⟩
    obtain ⟨huncontested, htwofold⟩ := h hpromoted
    exact ⟨hpromoted.independent, hpromoted.gate, hpromoted.consistent, huncontested, htwofold⟩

end Ceilings

-- == one source twice

namespace Sample

def piece (id group : String) : Json :=
  .obj [(py "evidence_id", .str (py id)), (py "independence_group", .str (py group)),
    (py "class", .str (py "EMPIRICAL")), (py "integrity", .str (py "PASS")),
    (py "decisive_against_promotion", .bool true)]

/-- One source is there twice, and the counterevidence is decisive. -/
def record : ClaimRecord where
  claimId := some (.str (py "T"))
  statement := some (.str (py "t"))
  scope := some (.str (py "s"))
  claimKind := some (.str (py "GENERAL"))
  currentEpistemicStatus := some (.str (py "SUPPORTED"))
  dimensions := some (.obj [(py "independent_verification_status", .str (py "PASS"))])
  support := some (.arr [piece "e" "g", piece "e" "h"])
  counterevidence := some (.arr [piece "x" "i"])
  unresolvedContradictions := none

theorem record_established : (validateClaim (fun _ => []) record).isOk = true
    ∧ isRejected record = false
    ∧ (computeCeiling (fun _ => []) record).toOption = some (.level established)
    ∧ ((objects record.counterevidence).any fun e =>
      decide ((hasIntegrity e).toOption = some true)) = true := by
  decide +kernel

end Sample

/-- Decisive counterevidence and a source that counts twice do not keep a claim from being
established. -/
theorem contested_established : validateClaim (fun _ => []) Sample.record = .ok ()
    ∧ isRejected Sample.record = false
    ∧ computeCeiling (fun _ => []) Sample.record = .ok (.level established)
    ∧ Decisive Sample.record ∧ ¬ Established Sample.record := by
  obtain ⟨hvalid, hrejected, hceiling, hintegrity⟩ := Sample.record_established
  have hok : ∀ {ε β : Type} {r : Except ε β} {b : β}, r.toOption = some b → r = .ok b := by
    intro ε β r b h
    cases r with
    | error e => cases h
    | ok b' =>
      cases h
      rfl
  obtain ⟨_, hvalid⟩ := exists_ok hvalid
  obtain ⟨e, he, hpass⟩ := List.any_eq_true.mp hintegrity
  have hmem := List.mem_singleton.mp he
  have hdecisive : Decisive Sample.record :=
    ⟨e, he, by rw [hmem]; rfl, hok (of_decide_eq_true hpass)⟩
  exact ⟨hvalid, hrejected, hok hceiling, hdecisive, fun h => h.uncontested hdecisive⟩

theorem ceiling_contested : validateClaim (fun _ => []) Sample.record = .ok ()
    ∧ ¬ (Promoted Sample.record → ¬ Decisive Sample.record
      ∧ ∃ support, usableSupport Sample.record = .ok support ∧ TwoIndependent support) := by
  obtain ⟨hvalid, hrejected, hceiling, hintegrity⟩ := Sample.record_established
  obtain ⟨_, hvalid⟩ := exists_ok hvalid
  refine ⟨hvalid, fun h => ?_⟩
  obtain ⟨-, -, hestablished⟩ := (ceiling_iff _ Sample.record hvalid hrejected).mpr h
  cases hrun : computeCeiling (fun _ => []) Sample.record with
  | error e =>
    rw [hrun] at hceiling
    cases hceiling
  | ok n =>
    rw [hrun] at hceiling
    cases hceiling
    obtain ⟨e, he, hpass⟩ := List.any_eq_true.mp hintegrity
    refine (hestablished hrun).uncontested ⟨e, he, ?_, ?_⟩
    · rw [List.mem_singleton.mp he]
      rfl
    · cases hrun : hasIntegrity e with
      | error e' =>
        rw [hrun] at hpass
        cases hpass
      | ok b =>
        rw [hrun] at hpass
        rw [Option.some.inj (of_decide_eq_true hpass)]

end Centinal26.Claims.Gate
