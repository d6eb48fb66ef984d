/-
Idempotency keys of contracts.
-/
import Centinal26.Fleet.Calls

namespace Centinal26.Fleet

open Py Steps

variable {F : FleetHost}

-- == content

/-- The immutable fields of a contract that a caller passes. -/
def ContractArgs.content (a : ContractArgs) : PyVal :=
  .dict [item "problem_statement" (.str a.problemStatement),
    item "source_basis" a.sourceBasis, item "priority" (.str a.priority),
    item "ranking" a.ranking, item "expected_outcome" (.str a.expectedOutcome),
    item "success_criteria" a.successCriteria, item "allowed_scope" a.allowedScope,
    item "prohibited_scope" a.prohibitedScope,
    item "dependencies" (.list (a.dependencies.map .str)),
    item "assigned_role" (.str a.assignedRole),
    item "verification_requirements" a.verificationRequirements,
    item "rollback_plan" a.rollbackPlan, item "resource_budget" a.resourceBudget,
    item "retry_budget" (.int a.retryBudget), item "current_head" (.str a.currentHead),
    item "subsystem" (.str a.subsystem), item "failure_criteria" a.failureCriteria,
    item "next_review_condition" (.str a.nextReviewCondition),
    item "on_verified_role" (optText a.onVerifiedRole)]

/-- Two calls pass the same fields, as they are stored. -/
def SameContent (a b : ContractArgs) : Prop :=
  ∃ doc, dumpsStrict a.content = .ok doc ∧ dumpsStrict b.content = .ok doc

/-- The arguments pass the checks, and the key can be looked up. -/
def ContractArgs.IsValid (a : ContractArgs) : Prop :=
  (∃ roles, checkContract a = .ok roles) ∧ ∃ key, encode a.idempotencyKey = .ok key

def Creates (a : ContractArgs) (id : Text) (e : Done) : Prop :=
  e.input = .create a ∧ e.output = .ok (.created id)

/-- What is expected of a run: a call that is answered with an existing contract has passed
the fields of the call that created it. -/
def KeysBind (F : FleetHost) (calls : List Call) : Prop :=
  ∀ pre e post, history F calls = pre ++ e :: post → ∀ a id, e.input = .create a →
    e.output = .ok (.existing id) →
    (∃ e₀ ∈ pre, ∃ a₀, Creates a₀ id e₀ ∧ a₀.idempotencyKey = a.idempotencyKey)
      ∧ ∀ e₀ ∈ pre, ∀ a₀, Creates a₀ id e₀ → SameContent a a₀

/-- Valid calls with one key pass the same fields as the one that created a contract. -/
def Consistent (F : FleetHost) (calls : List Call) : Prop :=
  ∀ pre e post, history F calls = pre ++ e :: post → ∀ a, e.input = .create a → a.IsValid →
    ∀ e₀ ∈ pre, ∀ a₀ id, Creates a₀ id e₀ → a₀.idempotencyKey = a.idempotencyKey →
    SameContent a a₀

-- == create_contract

/-- The answers of `create_contract`. -/
inductive Outcome (a : ContractArgs) (db : Db) : Reply → Db → Prop
  | existing (row : ContractRow) (hrow : row ∈ db.contracts.rows)
      (hkey : row.idempotencyKey.str = a.idempotencyKey) (hvalid : a.IsValid) :
      Outcome a db (.existing row.contractId) db
  | created (row : ContractRow) (db' : Db) (hkey : row.idempotencyKey.str = a.idempotencyKey)
      (hfree : ∀ r ∈ db.contracts.rows, r.idempotencyKey ≠ row.idempotencyKey)
      (hinsert : db.contracts.insert? row = some db'.contracts) :
      Outcome a db (.created row.contractId) db'

theorem contractColumns_key {a : ContractArgs} {columns : ContractColumns}
    (h : contractColumns a = .ok columns) : columns.idempotencyKey.str = a.idempotencyKey := by
  unfold contractColumns at h
  obtain ⟨key, hkey, h⟩ := of_bind_ok h
  iterate 17 obtain ⟨_, -, h⟩ := of_bind_ok h
  cases h
  exact encode_eq_ok.mp hkey

theorem insertContract_free (row : ContractRow) (db : Db) :
    Commits (insertContract row) db fun _ db' =>
      (∀ r ∈ db.contracts.rows, r.idempotencyKey ≠ row.idempotencyKey)
        ∧ ∃ contracts, db.contracts.insert? row = some contracts
          ∧ db' = { db with contracts := contracts } := by
  by_cases htaken : (db.contracts.rows.any fun c => decide (c.idempotencyKey = row.idempotencyKey)
      || decide (c.contractHash = row.contractHash)) = true
  · exact Commits.error (if_pos htaken)
  · cases hinsert : db.contracts.insert? row with
    | none =>
      have hrun : insertContract row db = (.error .integrityError, db) := by
        unfold insertContract
        simp only [htaken, Bool.false_eq_true, if_false, hinsert]
      exact Commits.error hrun
    | some contracts =>
      have hrun : insertContract row db = (.ok (), { db with contracts := contracts }) := by
        unfold insertContract
        simp only [htaken, Bool.false_eq_true, if_false, hinsert]
      refine Commits.step hrun ⟨fun r hr heq => htaken ?_, contracts, rfl, rfl⟩
      refine List.any_eq_true.mpr ⟨r, hr, ?_⟩
      rw [decide_eq_true heq, Bool.true_or]

theorem createBlock_keyed (a : ContractArgs) (role : Role) (onVerified : Option Role)
    (score : FloatLit) (contractHash : Text) (db : Db) :
    Commits ((Write.create a role onVerified score contractHash).block F.toHost) db
      fun reply db' => Outcome a db reply db' := by
  refine Commits.bind (R := fun _ db' => Outcome a db (.created (idOf "contract:" contractHash))
    db') ?_ fun _ _ h => .pure h
  refine Commits.after fun columns hcolumns => ?_
  refine Commits.bind (insertContract_free _ _) ?_
  rintro - - ⟨hfree, contracts, hinsert, rfl⟩
  refine Commits.bind (insertState_commits _ _) ?_
  rintro - - ⟨states, -, rfl⟩
  refine Commits.bind (appendEvent_commits _ _ _ _ _) fun _ db' hlogged => ?_
  refine .pure (Outcome.created ⟨idOf "contract:" contractHash, columns.idempotencyKey, a.now,
    score, columns.dependencies, role, a.retryBudget, columns.subsystem, onVerified,
    contractHash⟩ db' (contractColumns_key hcolumns) hfree ?_)
  rw [hlogged.contracts]
  exact hinsert

section Ends

variable {α β : Type} {db : Db} {Q : β → Db → Prop} {X : PyErr → Db → Prop}

theorem ends_ofExcept {r : Except PyErr α} {f : α → FProg β} (hX : ∀ e, r = .error e → X e db)
    (hf : ∀ a, r = .ok a → (f a).Ends db Q X) : (Prog.ofExcept r >>= f).Ends db Q X := by
  cases r with
  | ok a => exact hf a rfl
  | error e => exact Prog.Ends.raise (hX e rfl)

theorem ends_read {l : Access} {g : Db → α} {f : α → FProg β} (hf : (f (g db)).Ends db Q X) :
    (read l (fun db => .ok (g db)) >>= f).Ends db Q X := by
  refine Prog.Ends.bind (Q := fun a s => a = g db ∧ s = db)
    (.block (m := fun db => (.ok (g db), db)) ⟨⟨rfl, rfl⟩⟩) ?_
  rintro _ _ ⟨rfl, rfl⟩
  exact hf

theorem ends_transaction {m : FBlock α} {Q : α → Db → Prop} {X : PyErr → Prop}
    (h : m.Ends db Q fun e _ => X e) : (transaction m).Ends db Q fun e db' => db' = db ∧ X e := by
  obtain ⟨hrun⟩ := h
  constructor
  unfold transaction
  cases hm : m db with
  | mk r db' =>
    rw [hm] at hrun
    cases r with
    | ok a => exact hrun
    | error e => exact ⟨rfl, hrun⟩

theorem ends_run {p : FProg α} {Q : α → Db → Prop} (h : p.Ends db Q X) :
    (∃ a db', p.run db = (.ok a, db') ∧ Q a db')
      ∨ ∃ e db', p.run db = (.error e, db') ∧ X e db' := by
  obtain ⟨hrun⟩ := h
  cases hp : p.run db with
  | mk r db' =>
    rw [hp] at hrun
    cases r with
    | ok a => exact Or.inl ⟨a, db', rfl, hrun⟩
    | error e => exact Or.inr ⟨e, db', rfl, hrun⟩

end Ends

theorem createContract_ends (a : ContractArgs) (db : Db) :
    (createContract F a).Ends db (fun reply db' => Outcome a db reply db')
      fun _ db' => db' = db := by
  refine ends_ofExcept (fun _ _ => rfl) fun roles hroles => ?_
  refine ends_ofExcept (fun _ _ => rfl) fun key hkey => ?_
  refine ends_read ?_
  cases hfound : db.contracts.rows.find? fun c => decide (c.idempotencyKey = key) with
  | some row =>
    have hrow : row.idempotencyKey = key := by simpa using List.find?_some hfound
    refine .ret (.existing row (List.mem_of_find?_eq_some hfound) ?_ ⟨⟨roles, hroles⟩, key, hkey⟩)
    rw [hrow]
    exact encode_eq_ok.mp hkey
  | none =>
    refine ends_ofExcept (fun _ _ => rfl) fun score _ => ?_
    refine ends_ofExcept (fun _ _ => rfl) fun contractHash _ => ?_
    refine .block ((ends_transaction (X := fun _ => True)
      (createBlock_keyed a roles.1 roles.2 score contractHash db)).imp (fun _ _ h => h) ?_)
    exact fun _ _ h => h.1

theorem create_cases (a : ContractArgs) (db : Db) : (∃ e, call F (.create a) db = (.error e, db))
      ∨ ∃ reply db', call F (.create a) db = (.ok reply, db') ∧ Outcome a db reply db' := by
  rcases ends_run (createContract_ends (F := F) a db) with
    ⟨reply, db', hrun, houtcome⟩ | ⟨e, db', hrun, rfl⟩
  · exact Or.inr ⟨reply, db', hrun, houtcome⟩
  · exact Or.inl ⟨e, hrun⟩

theorem create_taken {a : ContractArgs} {db : Db} (hvalid : a.IsValid)
    (htaken : ∃ row ∈ db.contracts.rows, row.idempotencyKey.str = a.idempotencyKey) :
    ∃ row ∈ db.contracts.rows, row.idempotencyKey.str = a.idempotencyKey
      ∧ call F (.create a) db = (.ok (.existing row.contractId), db) := by
  obtain ⟨⟨roles, hroles⟩, key, hkey⟩ := hvalid
  obtain ⟨taken, htaken, htakenKey⟩ := htaken
  have hends : (createContract F a).Ends db (fun reply db' => db' = db
      ∧ ∃ row ∈ db.contracts.rows, row.idempotencyKey.str = a.idempotencyKey
        ∧ reply = .existing row.contractId) fun _ _ => False := by
    refine ends_ofExcept (fun e he => ?_) fun roles _ => ?_
    · rw [hroles] at he
      cases he
    · refine ends_ofExcept (fun e he => ?_) fun key' hkey' => ?_
      · rw [hkey] at he
        cases he
      · refine ends_read ?_
        cases hfound : db.contracts.rows.find? fun c => decide (c.idempotencyKey = key') with
        | some row =>
          have hrow : row.idempotencyKey = key' := by simpa using List.find?_some hfound
          refine .ret ⟨rfl, row, List.mem_of_find?_eq_some hfound, ?_, rfl⟩
          rw [hrow]
          exact encode_eq_ok.mp hkey'
        | none =>
          have hother := List.find?_eq_none.mp hfound taken htaken
          refine absurd (decide_eq_true (Text.ext ?_)) hother
          rw [htakenKey, encode_eq_ok.mp hkey']
  rcases ends_run hends with ⟨_, _, hrun, rfl, row, hrow, hrowKey, rfl⟩ | ⟨e, db', -, hfalse⟩
  · exact ⟨row, hrow, hrowKey, hrun⟩
  · exact hfalse.elim

-- == others

variable {db' : Db} {past : List Done} {e : Done}

theorem Wrote.contracts {w : Write} {db : Db} {reply : Reply} {H : Host}
    (h : Wrote H w db reply db') (hw : ∀ a role onVerified score contractHash,
      w ≠ .create a role onVerified score contractHash) : db'.contracts = db.contracts := by
  cases h with
  | create h => exact absurd rfl (hw _ _ _ _ _)
  | claim h => exact h.sameRecords.contracts
  | result h =>
    obtain ⟨row, results, mid, -, -, -, -, -, heffect, hlogged⟩ := h.recorded
    exact hlogged.contracts.trans heffect.sameRecords.contracts
  | verdict h =>
    obtain ⟨row, verdicts, mid, -, -, -, -, -, heffect, hlogged⟩ := h.recorded
    exact hlogged.contracts.trans heffect.sameRecords.contracts
  | error h =>
    obtain ⟨row, -, -, -, hlogged⟩ := h.recorded
    exact hlogged.contracts.trans (sameRecords_insertError db row).contracts

theorem Ran.contracts {c : Call} {db : Db} {r : Except PyErr Reply} (h : Ran F c db r db')
    (hc : ∀ a, c ≠ .create a) : db'.contracts = db.contracts := by
  cases h with
  | wrote hasks h =>
    refine h.contracts ?_
    rintro a role onVerified score contractHash rfl
    cases hasks
    exact hc _ rfl
  | noted hc' h =>
    refine h.contracts ?_
    intro a role onVerified score contractHash heq
    cases heq
  | idle _ => rfl

-- == runs

/-- What a run of calls has left: the contracts are those its calls have created, one for a
key. -/
structure Keyed (past : List Done) (db : Db) : Prop where
  created : ∀ row ∈ db.contracts.rows, ∃ e ∈ past, ∃ a, Creates a row.contractId e
    ∧ a.idempotencyKey = row.idempotencyKey.str
  stored : ∀ e ∈ past, ∀ a id, Creates a id e → ∃ row ∈ db.contracts.rows,
    row.contractId = id ∧ row.idempotencyKey.str = a.idempotencyKey
  unique : ∀ r ∈ db.contracts.rows, ∀ r' ∈ db.contracts.rows,
    r.idempotencyKey = r'.idempotencyKey → r = r'

theorem keyed_empty : Keyed [] Db.empty :=
  ⟨fun _ h => (by cases h), fun _ h => (by cases h), fun _ h => (by cases h)⟩

theorem Keyed.keep (h : Keyed past e.before)
    (hcontracts : e.after.contracts = e.before.contracts) (hnone : ∀ a id, ¬ Creates a id e) :
    Keyed (past ++ [e]) e.after := by
  refine ⟨?_, ?_, ?_⟩
  · rw [hcontracts]
    intro row hrow
    obtain ⟨e', he', hcreates⟩ := h.created row hrow
    exact ⟨e', List.mem_append_left _ he', hcreates⟩
  · rw [hcontracts]
    intro e' he' a id hcreates
    rcases List.mem_append.mp he' with he' | he'
    · exact h.stored e' he' a id hcreates
    · rw [List.mem_singleton.mp he'] at hcreates
      exact absurd hcreates (hnone a id)
  · rw [hcontracts]
    exact h.unique

theorem keyed_step (hv : e.Valid (call F))
    (h : Keyed past e.before) : Keyed (past ++ [e]) e.after := by
  obtain ⟨c, db, r, db'⟩ := e
  replace hv : call F c db = (r, db') := hv
  by_cases hc : ∃ a, c = .create a
  · obtain ⟨a, rfl⟩ := hc
    rcases create_cases (F := F) a db with ⟨x, hrun⟩ | ⟨reply, db'', hrun, houtcome⟩
    · cases hv.symm.trans hrun
      refine h.keep rfl ?_
      rintro a' id ⟨-, hout⟩
      cases hout
    · cases hv.symm.trans hrun
      cases houtcome with
      | existing row hrow hkey hvalid =>
        refine h.keep rfl ?_
        rintro a' id ⟨-, hout⟩
        cases hout
      | created row db' hkey hfree hinsert =>
        have hrows := Table.rows_insert hinsert
        have hmem : ∀ r, r ∈ db'.contracts.rows ↔ r ∈ db.contracts.rows ∨ r = row := by
          intro r
          rw [hrows, List.mem_append, List.mem_singleton]
        refine ⟨?_, ?_, ?_⟩
        · intro r hr
          rcases (hmem r).mp hr with hold | rfl
          · obtain ⟨e', he', hcreates⟩ := h.created r hold
            exact ⟨e', List.mem_append_left _ he', hcreates⟩
          · exact ⟨_, List.mem_append_right _ (List.mem_singleton_self _), a, ⟨rfl, rfl⟩, hkey.symm⟩
        · intro e' he' a' id hcreates
          rcases List.mem_append.mp he' with he' | he'
          · obtain ⟨r, hr, hspec⟩ := h.stored e' he' a' id hcreates
            exact ⟨r, (hmem r).mpr (Or.inl hr), hspec⟩
          · rw [List.mem_singleton.mp he'] at hcreates
            obtain ⟨hin, hout⟩ := hcreates
            cases hin
            cases hout
            exact ⟨row, (hmem row).mpr (Or.inr rfl), rfl, hkey⟩
        · intro r hr r' hr' heq
          rcases (hmem r).mp hr with hold | rfl
          · rcases (hmem r').mp hr' with hold' | rfl
            · exact h.unique r hold r' hold' heq
            · exact absurd heq (hfree r hold)
          · rcases (hmem r').mp hr' with hold' | rfl
            · exact absurd heq.symm (hfree r' hold')
            · rfl
  · have hother : ∀ a, c ≠ .create a := fun a heq => hc ⟨a, heq⟩
    have hran := call_ran F c db
    rw [hv] at hran
    refine h.keep (hran.contracts hother) ?_
    rintro a id ⟨hin, -⟩
    exact hother a hin

theorem keyed_history {calls : List Call} {pre post : List Done}
    (h : history F calls = pre ++ e :: post) : e.Valid (call F) ∧ Keyed pre e.before := by
  obtain ⟨js, i, ks, rfl, rfl, rfl, -⟩ := Machine.trace_split _ h
  refine ⟨rfl, ?_⟩
  exact Machine.history_invariant (C := fun _ => True) (call F) Db.empty keyed_empty
    (fun past e hv _ hk => keyed_step hv hk) js fun _ _ => trivial

/-- An idempotency key binds the content of its contract exactly in the runs whose valid calls
with one key pass the same content. -/
theorem keys_bind (F : FleetHost) (calls : List Call) : KeysBind F calls ↔ Consistent F calls := by
  constructor
  · intro hbind pre e post h a hin hvalid e₀ he₀ a₀ id hcreates hkey
    obtain ⟨hv, hkeyed⟩ := keyed_history h
    obtain ⟨row, hrow, rfl, hrowKey⟩ := hkeyed.stored e₀ he₀ a₀ id hcreates
    obtain ⟨row', hrow', hrowKey', hrun⟩ :=
      create_taken (F := F) hvalid ⟨row, hrow, hrowKey.trans hkey⟩
    obtain rfl : row' = row := hkeyed.unique row' hrow' row hrow
      (Text.ext (by rw [hrowKey', hrowKey, hkey]))
    refine (hbind pre e post h a row'.contractId hin ?_).2 e₀ he₀ a₀ hcreates
    unfold Machine.Entry.Valid at hv
    rw [hin, hrun] at hv
    exact (congrArg Prod.fst hv).symm
  · intro hconsistent pre e post h a id hin hout
    obtain ⟨hv, hkeyed⟩ := keyed_history h
    unfold Machine.Entry.Valid at hv
    rw [hin, hout] at hv
    rcases create_cases (F := F) a e.before with ⟨x, hrun⟩ | ⟨reply, db', hrun, houtcome⟩
    · cases hv.symm.trans hrun
    · have hreply : Except.ok (Reply.existing id) = .ok reply :=
        congrArg Prod.fst (hv.symm.trans hrun)
      cases hreply
      cases houtcome with
      | existing row hrow hkey hvalid =>
        refine ⟨?_, fun e₀ he₀ a₀ hcreates => ?_⟩
        · obtain ⟨e₀, he₀, a₀, hcreates, hkey₀⟩ := hkeyed.created row hrow
          exact ⟨e₀, he₀, a₀, hcreates, hkey₀.trans hkey⟩
        · obtain ⟨row₀, hrow₀, hid, hkey₀⟩ := hkeyed.stored e₀ he₀ a₀ _ hcreates
          have hsame : some row₀ = some row := by
            rw [← Table.find?_of_mem hrow₀, hid, Table.find?_of_mem hrow]
          cases hsame
          exact hconsistent pre e post h a hin hvalid e₀ he₀ a₀ _ hcreates (hkey₀.symm.trans hkey)

-- == samples

/-- Other work, under the key of `buildContract`. -/
def otherContract : ContractArgs :=
  { buildContract 1 none with problemStatement := py "everything is rebuilt" }

/-- The contract of a first call, that another call under its key is answered with. -/
def twoCalls : List Call := [.create (buildContract 1 none), .create otherContract]

/-- The second call is answered with the contract of the first, for other work. -/
theorem answered_with_other_work : ∃ id, ((history machine twoCalls).map Machine.Entry.output)
        = [.ok (.created id), .ok (.existing id)]
      ∧ ¬ SameContent otherContract (buildContract 1 none)
      ∧ ¬ KeysBind machine twoCalls := by
  have hrun : (history machine twoCalls).map Machine.Entry.output
      = [.ok (.created (idOn (buildContract 1 none))),
        .ok (.existing (idOn (buildContract 1 none)))] := by decide +kernel
  have hother : ¬ SameContent otherContract (buildContract 1 none) := by
    rintro ⟨doc, hdoc, hdoc'⟩
    have hne : (dumpsStrict otherContract.content).toOption.map (Json.text .canonical)
        ≠ (dumpsStrict (buildContract 1 none).content).toOption.map (Json.text .canonical) := by
      decide +kernel
    exact hne (by rw [hdoc, hdoc'])
  refine ⟨idOn (buildContract 1 none), hrun, hother, fun hbind => hother ?_⟩
  obtain ⟨e₀, e, hhistory⟩ : ∃ e₀ e, history machine twoCalls = [e₀, e] := ⟨_, _, rfl⟩
  have hinputs : (history machine twoCalls).map Machine.Entry.input = twoCalls := rfl
  rw [hhistory] at hrun hinputs
  injection hrun with hout₀ hrun
  injection hrun with hout
  injection hinputs with hin₀ hinputs
  injection hinputs with hin
  exact (hbind [e₀] e [] hhistory otherContract _ hin hout).2 e₀ (List.mem_singleton_self _)
    (buildContract 1 none) ⟨hin₀, hout₀⟩

end Centinal26.Fleet
