/-
An export's source identity is never bound to other content, whatever calls are made on
a store: `preserve_export` keeps the invariant, and a call can be told from the store
whether it succeeds.
-/
import Centinal26.Export.Sound

namespace Centinal26.Export

open Py

section Calls

variable (D : Digests) (toFloat : PyStr → PyFloat)

-- == one call

/-- What lets a call go through, on a sound store. -/
structure Accepts (s : Store) (c : Call) (bytes : Bytes) (id : Hex) : Prop where
  provider : strStrip c.provider ≠ []
  source : c.source = some bytes
  identity : hashDoc D (c.identity (D.ofBytes bytes)) = .ok id
  unbound : ∀ r, Stored s r → ¬ Conflicts r c (D.ofBytes bytes)
  /-- a receipt with the id is of the same content, whose object has the same size -/
  duplicate : ∀ r : Receipt, s.receipt? id.str = some ⟨r.line, false⟩ →
    r.sha256 = D.ofBytes bytes ∧ r.size = bytes.length
  /-- without one, the object can be made or is there, and the receipt can be written -/
  fresh : s.receipt? id.str = none → (match s.object? (objectRelpath (D.ofBytes bytes)) with
      | some object => object.length = bytes.length
      | none => D.ofBytes c.copied = D.ofBytes bytes ∧ c.copied.length = bytes.length)
    ∧ (Json.obj (c.receipt id (D.ofBytes bytes) bytes.length).members).isShort = true
    ∧ Encodable (c.receipt id (D.ofBytes bytes) bytes.length).line

def writesOf (s : Store) (c : Call) (bytes : Bytes) (id : Hex) : List Write :=
  match s.receipt? id.str with
  | some _ => []
  | none =>
    (match s.object? (objectRelpath (D.ofBytes bytes)) with
      | some _ => []
      | none => [.object (objectRelpath (D.ofBytes bytes)) c.copied])
    ++ [.receipt id.str (c.receipt id (D.ofBytes bytes) bytes.length).line,
      .index (c.receipt id (D.ofBytes bytes) bytes.length).line]

variable {s : Store} {id : Hex} {f : TextFile} {c : Call}

theorem stored_of_receipt? (h : Sound D s)
    (hf : s.receipt? id.str = some f) : ∃ r, Stored s r ∧ r.id = id ∧ f = ⟨r.line, false⟩
      ∧ (Json.obj r.members).isShort = true := by
  obtain ⟨r, heq, hshort⟩ := h.readable _ (mem_of_getItem? hf)
  have hid : id.str = r.id.str := congrArg Prod.fst heq
  have hfile : f = ⟨r.line, false⟩ := congrArg Prod.snd heq
  refine ⟨r, ?_, (Hex.str_inj.mp hid).symm, hfile, hshort⟩
  show (r.id.str, _) ∈ s.receipts
  rw [← hid, ← hfile]
  exact mem_of_getItem? hf

theorem verifyExistingObject_ok {object : Option Bytes} {sha256 : Hex} {size : Nat} :
    verifyExistingObject D object sha256.str size = .ok ()
      ↔ ∃ bytes, object = some bytes ∧ D.ofBytes bytes = sha256 ∧ bytes.length = size := by
  cases object with
  | none => exact ⟨nofun, fun ⟨_, h, _⟩ => (by cases h)⟩
  | some bytes =>
    unfold verifyExistingObject
    simp only [Hex.str_inj, Int.natCast_inj]
    constructor
    · intro h
      split at h
      · next hb => exact ⟨bytes, rfl, hb⟩
      · cases h
    · intro h
      obtain ⟨b, hb, h⟩ := h
      cases hb
      rw [if_pos h]

theorem duplicate_line {r : Receipt}
    (hshort : (Json.obj r.members).isShort = true) (id sha256 : Hex) (size : Nat) :
    (∃ v, duplicate D toFloat s ⟨r.line, false⟩ id sha256 size = .ok v)
      ↔ r.sha256 = sha256 ∧ ∃ bytes, s.object? (objectRelpath sha256) = some bytes
        ∧ D.ofBytes bytes = sha256 ∧ bytes.length = size := by
  have hload := load_line toFloat hshort .valueError
  have hcontent : orEmpty (field r.members "content") = .ok [
      (py "object_relpath", .str (objectRelpath r.sha256)),
      (py "raw_preserved_unextracted", .bool true), (py "sha256", .str r.sha256.str),
      (py "size", .int r.size)] := rfl
  have hkey : (field [(py "object_relpath", Json.str (objectRelpath r.sha256)),
      (py "raw_preserved_unextracted", .bool true), (py "sha256", .str r.sha256.str),
      (py "size", .int r.size)] "sha256").isStr sha256.str = decide (r.sha256 = sha256) := by
    show decide (r.sha256.str = sha256.str) = _
    simp only [Hex.str_inj]
  unfold duplicate
  rw [hload]
  simp only [bind_ok_eq, mapping, hcontent, hkey]
  by_cases hs : r.sha256 = sha256
  · simp only [hs, decide_true, Bool.not_true, Bool.false_eq_true, if_false, true_and]
    constructor
    · intro h
      obtain ⟨v, hv⟩ := h
      obtain ⟨u, hu, -⟩ := of_bind_ok hv
      exact (verifyExistingObject_ok D).mp hu
    · intro h
      rw [(verifyExistingObject_ok D).mpr h]
      exact ⟨_, rfl⟩
  · simp [hs]

theorem writeReceipt_spec (r : Receipt) : ((Json.obj r.members).isShort = true ∧ Encodable r.line
      ∧ writeReceipt r = ([.receipt r.id.str r.line, .index r.line], .ok ()))
    ∨ (¬ ((Json.obj r.members).isShort = true ∧ Encodable r.line)
      ∧ ∃ e, writeReceipt r = ([], .error e) ∧ e ≠ .sourceIdentityConflict) := by
  unfold writeReceipt
  by_cases hshort : (Json.obj r.members).isShort = true
  · by_cases hline : Encodable r.line
    · exact Or.inl ⟨hshort, hline, by simp [hshort, hline]⟩
    · exact Or.inr ⟨fun h => hline h.2, _, by simp [hshort, hline]; rfl, by simp⟩
  · exact Or.inr ⟨fun h => hshort h.1, _, by simp [hshort]; rfl, by simp⟩

inductive Outcome (s : Store) (c : Call) : Act PreservationResult → Prop
  | accepted {bytes : Bytes} {id : Hex} {v : PreservationResult} (h : Accepts D s c bytes id)
      (hid : v.receiptId = id.str) : Outcome s c (writesOf D s c bytes id, .ok v)
  /-- nothing is written -/
  | refused {e : EvidenceError} (h : ∀ bytes id, ¬ Accepts D s c bytes id) :
      Outcome s c ([], .error e)
  /-- an object is left without a receipt -/
  | orphaned {e : EvidenceError} {sha256 : Hex} (h : ∀ bytes id, ¬ Accepts D s c bytes id)
      (hkind : e ≠ .sourceIdentityConflict)
      (hnew : s.object? (objectRelpath sha256) = none)
      (hbytes : D.ofBytes c.copied = sha256) :
      Outcome s c ([.object (objectRelpath sha256) c.copied], .error e)
  /-- an object is made and removed again -/
  | changed {e : EvidenceError} {relpath : PyStr} (h : ∀ bytes id, ¬ Accepts D s c bytes id)
      (hkind : e ≠ .sourceIdentityConflict) (hnew : s.object? relpath = none) :
      Outcome s c ([.object relpath c.copied, .dropObject relpath], .error e)

/-- An accepted call is accepted for its source and its identity. -/
theorem only_accepts {bytes : Bytes} (hsource : c.source = some bytes)
    (hid : hashDoc D (c.identity (D.ofBytes bytes)) = .ok id) {P : Prop}
    (hP : Accepts D s c bytes id → P) (b : Bytes) (i : Hex) (ha : Accepts D s c b i) : P := by
  have hb : bytes = b := Option.some.inj (hsource.symm.trans ha.source)
  subst hb
  have hi : id = i := Except.ok.inj (hid.symm.trans ha.identity)
  subst hi
  exact hP ha

section Locked

variable {bytes : Bytes} (h : Sound D s) (hprovider : strStrip c.provider ≠ [])
  (hsource : c.source = some bytes) (hid : hashDoc D (c.identity (D.ofBytes bytes)) = .ok id)
  (hchecks : checkReceipts toFloat (strStrip c.provider) (normalizeOptional c.messageId)
    (normalizeOptional c.exportId) (D.ofBytes bytes).str (sortByName s.receipts) = .ok ())
  (hunbound : ∀ r, Stored s r → ¬ Conflicts r c (D.ofBytes bytes))

include h hprovider hsource hid hchecks hunbound

/-- The receipt is there: nothing is written. -/
theorem duplicate_outcome {f : TextFile} (hreceipt : s.receipt? id.str = some f) :
    Outcome D s c (preserveLocked D toFloat s c id (D.ofBytes bytes) bytes.length) := by
  unfold preserveLocked
  rw [hchecks]
  simp only
  rw [hreceipt]
  obtain ⟨r, hr, rfl, rfl, hshort⟩ := stored_of_receipt? D h hreceipt
  have hdup := duplicate_line D toFloat (s := s) hshort r.id (D.ofBytes bytes) bytes.length
  obtain ⟨object, hobject, hcontent, hsize⟩ := h.kept r hr
  simp only
  cases hres : duplicate D toFloat s ⟨r.line, false⟩ r.id (D.ofBytes bytes) bytes.length with
  | ok v =>
    obtain ⟨hsha, b, hb, hbytes, hlength⟩ := hdup.mp ⟨v, hres⟩
    have hv : v.receiptId = r.id.str := by
      unfold duplicate at hres
      obtain ⟨j, -, hres⟩ := of_bind_ok hres
      obtain ⟨m, -, hres⟩ := of_bind_ok hres
      obtain ⟨content, -, hres⟩ := of_bind_ok hres
      split at hres
      · cases hres
      · obtain ⟨u, -, hres⟩ := of_bind_ok hres
        cases hres
        rfl
    have hsame : ∀ r' : Receipt, s.receipt? r.id.str = some ⟨r'.line, false⟩ →
        r'.sha256 = D.ofBytes bytes ∧ r'.size = bytes.length := by
      intro r' hr'
      rw [hreceipt] at hr'
      have hline := congrArg TextFile.text (Option.some.inj hr')
      rw [← Receipt.line_injective hline]
      refine ⟨hsha, ?_⟩
      rw [hsha, hb] at hobject
      cases hobject
      exact hsize.symm.trans hlength
    have hwrites : writesOf D s c bytes r.id = [] := by
      unfold writesOf
      rw [hreceipt]
    rw [← hwrites]
    exact .accepted ⟨hprovider, hsource, hid, hunbound, hsame,
      fun hnone => by rw [hreceipt] at hnone; cases hnone⟩ hv
  | error e =>
    refine .refused (only_accepts D hsource hid fun ha => ?_)
    obtain ⟨hsha, hlength⟩ := ha.duplicate r hreceipt
    have hok := hdup.mpr ⟨hsha, object, by rw [← hsha]; exact hobject,
      by rw [hcontent, hsha], by rw [hsize, hlength]⟩
    obtain ⟨v, hv⟩ := hok
    rw [hres] at hv
    cases hv

/-- The object is there, and the receipt is not. -/
theorem reused_outcome {object : Bytes} (hreceipt : s.receipt? id.str = none)
    (hobject : s.object? (objectRelpath (D.ofBytes bytes)) = some object) :
    Outcome D s c (preserveLocked D toFloat s c id (D.ofBytes bytes) bytes.length) := by
  unfold preserveLocked
  rw [hchecks]
  simp only
  rw [hreceipt]
  simp only
  have hnodup : ∀ r : Receipt, s.receipt? id.str = some ⟨r.line, false⟩ →
      r.sha256 = D.ofBytes bytes ∧ r.size = bytes.length := by
    intro r hr
    rw [hreceipt] at hr
    cases hr
  have hwrite := writeReceipt_spec (c.receipt id (D.ofBytes bytes) bytes.length)
  have hpreserve : preserveObject D s (objectRelpath (D.ofBytes bytes)) c.copied
      (D.ofBytes bytes) bytes.length = ([],
        (verifyExistingObject D (some object) (D.ofBytes bytes).str bytes.length).map
          fun _ => false) := by
    rw [preserveObject, hobject]
  rw [hpreserve]
  by_cases hlength : object.length = bytes.length
  · have hverify : verifyExistingObject D (some object) (D.ofBytes bytes).str
        bytes.length = .ok () :=
      (verifyExistingObject_ok D).mpr ⟨object, rfl, h.addressed _ _ hobject, hlength⟩
    rw [hverify]
    rcases hwrite with ⟨hshort, hline, hw⟩ | ⟨hbad, e, hw, hkind⟩
    · have hwrites : writesOf D s c bytes id
          = [.receipt id.str (c.receipt id (D.ofBytes bytes) bytes.length).line,
            .index (c.receipt id (D.ofBytes bytes) bytes.length).line] := by
        rw [writesOf, hreceipt, hobject]
        rfl
      have ha : Accepts D s c bytes id := ⟨hprovider, hsource, hid, hunbound, hnodup,
        fun _ => ⟨by rw [hobject]; exact hlength, hshort, hline⟩⟩
      have hout : Outcome D s c (writesOf D s c bytes id,
          .ok (resultOf .reusedObject id (D.ofBytes bytes) bytes.length)) := .accepted ha rfl
      rw [hwrites] at hout
      simp only [Except.map, Act.andThen, hw]
      exact hout
    · simp only [Except.map, Act.andThen, hw]
      exact .refused (only_accepts D hsource hid fun ha => hbad (ha.fresh hreceipt).2)
  · cases hverify : verifyExistingObject D (some object) (D.ofBytes bytes).str bytes.length with
    | ok u =>
      obtain ⟨b, hb, -, hl⟩ := (verifyExistingObject_ok D).mp hverify
      cases hb
      exact absurd hl hlength
    | error e =>
      refine .refused (only_accepts D hsource hid fun ha => hlength ?_)
      have hsize := (ha.fresh hreceipt).1
      rw [hobject] at hsize
      exact hsize

omit h in
/-- Both are new. -/
theorem fresh_outcome (hreceipt : s.receipt? id.str = none)
    (hobject : s.object? (objectRelpath (D.ofBytes bytes)) = none) :
    Outcome D s c (preserveLocked D toFloat s c id (D.ofBytes bytes) bytes.length) := by
  unfold preserveLocked
  rw [hchecks]
  simp only
  rw [hreceipt]
  simp only
  have hnodup : ∀ r : Receipt, s.receipt? id.str = some ⟨r.line, false⟩ →
      r.sha256 = D.ofBytes bytes ∧ r.size = bytes.length := by
    intro r hr
    rw [hreceipt] at hr
    cases hr
  have hwrite := writeReceipt_spec (c.receipt id (D.ofBytes bytes) bytes.length)
  by_cases hcopied : D.ofBytes c.copied = D.ofBytes bytes ∧ c.copied.length = bytes.length
  · have hpreserve : preserveObject D s (objectRelpath (D.ofBytes bytes)) c.copied
        (D.ofBytes bytes) bytes.length
        = ([.object (objectRelpath (D.ofBytes bytes)) c.copied], .ok true) := by
      rw [preserveObject, hobject]
      simp only [hcopied, and_self, if_true]
    rw [hpreserve]
    rcases hwrite with ⟨hshort, hline, hw⟩ | ⟨hbad, e, hw, hkind⟩
    · have hwrites : writesOf D s c bytes id
          = [.object (objectRelpath (D.ofBytes bytes)) c.copied,
            .receipt id.str (c.receipt id (D.ofBytes bytes) bytes.length).line,
            .index (c.receipt id (D.ofBytes bytes) bytes.length).line] := by
        rw [writesOf, hreceipt, hobject]
        rfl
      have ha : Accepts D s c bytes id := ⟨hprovider, hsource, hid, hunbound, hnodup,
        fun _ => ⟨by rw [hobject]; exact hcopied, hshort, hline⟩⟩
      have hout : Outcome D s c (writesOf D s c bytes id,
          .ok (resultOf .preserved id (D.ofBytes bytes) bytes.length)) := .accepted ha rfl
      rw [hwrites] at hout
      simp only [Act.andThen, hw]
      exact hout
    · simp only [Act.andThen, hw]
      exact .orphaned (only_accepts D hsource hid fun ha => hbad (ha.fresh hreceipt).2)
        hkind hobject hcopied.1
  · have hpreserve : preserveObject D s (objectRelpath (D.ofBytes bytes)) c.copied
        (D.ofBytes bytes) bytes.length
        = ([.object (objectRelpath (D.ofBytes bytes)) c.copied,
            .dropObject (objectRelpath (D.ofBytes bytes))],
          .error (.store "SOURCE_CHANGED_DURING_INGEST")) := by
      rw [preserveObject, hobject]
      simp only [hcopied, if_false]
    rw [hpreserve]
    refine .changed (only_accepts D hsource hid fun ha => hcopied ?_) (by simp) hobject
    have hfresh := (ha.fresh hreceipt).1
    rw [hobject] at hfresh
    exact hfresh

theorem locked_outcome :
    Outcome D s c (preserveLocked D toFloat s c id (D.ofBytes bytes) bytes.length) := by
  cases hreceipt : s.receipt? id.str with
  | some f => exact duplicate_outcome D toFloat h hprovider hsource hid hchecks hunbound hreceipt
  | none =>
    cases hobject : s.object? (objectRelpath (D.ofBytes bytes)) with
    | some object =>
      exact reused_outcome D toFloat h hprovider hsource hid hchecks hunbound hreceipt hobject
    | none => exact fresh_outcome D toFloat hprovider hsource hid hchecks hunbound hreceipt hobject

end Locked

theorem preserveExport_outcome (h : Sound D s) (c : Call) :
    Outcome D s c (preserveExport D toFloat s c) := by
  unfold preserveExport
  by_cases hprovider : strStrip c.provider = []
  · rw [if_pos hprovider]
    exact .refused fun bytes id ha => ha.provider hprovider
  · rw [if_neg hprovider]
    cases hsource : c.source with
    | none =>
      refine .refused fun bytes id ha => ?_
      have := ha.source
      rw [hsource] at this
      cases this
    | some bytes =>
      simp only
      cases hid : hashDoc D (c.identity (D.ofBytes bytes)) with
      | error e =>
        refine .refused fun b i ha => ?_
        have hb := Option.some.inj (hsource.symm.trans ha.source)
        have := ha.identity
        rw [← hb, hid] at this
        cases this
      | ok id =>
        simp only
        rcases checkReceipts_readable toFloat h.readable c (D.ofBytes bytes) with
          ⟨hchecks, hunbound⟩ | ⟨hchecks, r, hr, hconflict⟩
        · exact locked_outcome D toFloat h hprovider hsource hid hchecks hunbound
        · unfold preserveLocked
          rw [hchecks]
          refine .refused fun b i ha => ?_
          have hb := Option.some.inj (hsource.symm.trans ha.source)
          exact ha.unbound r hr (hb ▸ hconflict)

-- == all calls

theorem sound_writesOf (h : Sound D s) {bytes : Bytes}
    (ha : Accepts D s c bytes id) : Sound D (s.applyAll (writesOf D s c bytes id)) := by
  unfold writesOf
  cases hreceipt : s.receipt? id.str with
  | some f => exact h
  | none =>
    obtain ⟨hobject, hshort, hline⟩ := ha.fresh hreceipt
    have hbound : ∀ r', Stored s r' → SharesIdentity r'.provider (strStrip c.provider) r'.messageId
          (normalizeOptional c.messageId) r'.exportId (normalizeOptional c.exportId) →
        r'.sha256 = D.ofBytes bytes := by
      intro r' hr' hshare
      by_contra hne
      exact ha.unbound r' hr' ⟨hshare, hne⟩
    cases hthere : s.object? (objectRelpath (D.ofBytes bytes)) with
    | some object =>
      rw [hthere] at hobject
      exact h.addReceipt D (r := c.receipt id (D.ofBytes bytes) bytes.length) hreceipt hshort
        ⟨object, hthere, h.addressed _ _ hthere, hobject⟩ hbound
    | none =>
      rw [hthere] at hobject
      have hadded := h.addObject D hthere hobject.1
      refine hadded.addReceipt D (r := c.receipt id (D.ofBytes bytes) bytes.length) hreceipt
        hshort ⟨c.copied, ?_, hobject⟩ hbound
      show getItem? (setItem s.objects _ _) _ = _
      rw [getItem?_setItem]
      exact if_pos rfl

theorem filter_setItem {relpath : PyStr} (bytes : Bytes) (h : s.object? relpath = none) :
    (s.apply (.object relpath bytes)).apply (.dropObject relpath) = s := by
  have hobjects : (setItem s.objects relpath bytes).filter
      (fun o => decide (o.1 ≠ relpath)) = s.objects := by
    rw [setItem_new h, List.filter_append]
    have hall : s.objects.filter (fun o => decide (o.1 ≠ relpath)) = s.objects :=
      List.filter_eq_self.mpr fun o ho => decide_eq_true (not_mem_of_getItem? h ho)
    rw [hall]
    simp
  show (⟨(setItem s.objects relpath bytes).filter _, s.receipts, s.index⟩ : Store) = s
  rw [hobjects]

theorem Sound.after (h : Sound D s) (c : Call) : Sound D (after D toFloat s c) := by
  have hout := preserveExport_outcome D toFloat h c
  unfold Export.after
  generalize preserveExport D toFloat s c = act at hout ⊢
  cases hout with
  | accepted ha _ => exact sound_writesOf D h ha
  | refused _ => exact h
  | orphaned _ _ hnew hbytes => exact h.addObject D hnew hbytes
  | @changed e relpath _ _ hnew =>
    have hsame : s.applyAll [.object relpath c.copied, .dropObject relpath] = s :=
      filter_setItem c.copied hnew
    show Sound D (s.applyAll _)
    rw [hsame]
    exact h

theorem receipt?_after (h : Sound D s) (c : Call) {id : PyStr}
    (hf : s.receipt? id = some f) : (after D toFloat s c).receipt? id = some f := by
  have hout := preserveExport_outcome D toFloat h c
  unfold Export.after
  generalize preserveExport D toFloat s c = act at hout ⊢
  cases hout with
  | @accepted bytes i v ha _ =>
    unfold writesOf
    cases hreceipt : s.receipt? i.str with
    | some g => exact hf
    | none =>
      have hkeep : ∀ t : Store, t.receipts = s.receipts → ∀ line,
          ((t.apply (.receipt i.str line)).apply (.index line)).receipt? id = some f := by
        intro t ht line
        show getItem? (setItem t.receipts _ _) _ = _
        rw [ht, getItem?_setItem]
        split
        · next heq =>
          rw [heq, hreceipt] at hf
          cases hf
        · exact hf
      cases s.object? (objectRelpath (D.ofBytes bytes)) with
      | some object => exact hkeep s rfl _
      | none => exact hkeep (s.apply _) rfl _
  | refused _ => exact hf
  | orphaned _ _ _ _ => exact hf
  | changed _ _ _ => exact hf

theorem receipt?_of_returned (h : Sound D s) {v : PreservationResult}
    (hv : (preserveExport D toFloat s c).2 = .ok v) :
    ∃ bytes id, Accepts D s c bytes id ∧ v.receiptId = id.str
      ∧ (preserveExport D toFloat s c).1 = writesOf D s c bytes id
      ∧ ∃ f, (after D toFloat s c).receipt? id.str = some f := by
  have hout := preserveExport_outcome D toFloat h c
  unfold Export.after
  revert hv
  generalize preserveExport D toFloat s c = act at hout ⊢
  cases hout with
  | @accepted bytes id v' ha hid =>
    intro hv
    cases hv
    refine ⟨bytes, id, ha, hid, rfl, ?_⟩
    unfold writesOf
    cases hreceipt : s.receipt? id.str with
    | some f => exact ⟨f, hreceipt⟩
    | none =>
      have hnew : ∀ (t : Store) (line : PyStr),
          ((t.apply (.receipt id.str line)).apply (.index line)).receipt? id.str
            = some ⟨line, false⟩ := by
        intro t line
        show getItem? (setItem t.receipts _ _) _ = _
        rw [getItem?_setItem, if_pos rfl]
      cases s.object? (objectRelpath (D.ofBytes bytes)) with
      | some object => exact ⟨_, hnew s _⟩
      | none => exact ⟨_, hnew (s.apply _) _⟩
  | refused _ => exact nofun
  | orphaned _ _ _ _ => exact nofun
  | changed _ _ _ => exact nofun

theorem verifyReceipt_ok (h : Sound D s)
    (hf : s.receipt? id.str = some f) : ∃ v, verifyReceipt D toFloat s id.str = .ok v := by
  obtain ⟨r, hr, rfl, rfl, hshort⟩ := stored_of_receipt? D h hf
  obtain ⟨bytes, hbytes, hcontent, hsize⟩ := h.kept r hr
  have hschema : (field r.members "schema").isStr schema = true := by
    show decide (schema = schema) = true
    simp
  have hid : (field r.members "receipt_id").isStr r.id.str = true := by
    show decide (r.id.str = r.id.str) = true
    simp
  obtain ⟨content, hfields, hsha256, hlength, hrelpath⟩ : ∃ content,
      orEmpty (field r.members "content") = .ok content
        ∧ field content "sha256" = .str r.sha256.str ∧ field content "size" = .int r.size
        ∧ field content "object_relpath" = .str (objectRelpath r.sha256) :=
    ⟨_, rfl, rfl, rfl, rfl⟩
  have hdigits : ¬ r.sha256.str.length ≠ 64 := not_not_intro r.sha256.length
  have hsigned : ¬ (r.size : Int) < 0 := by omega
  have hverify : verifyExistingObject D (s.object? (objectRelpath r.sha256)) r.sha256.str r.size
      = .ok () :=
    (verifyExistingObject_ok D).mpr ⟨bytes, hbytes, hcontent, hsize⟩
  unfold verifyReceipt
  rw [hf]
  simp only [load_line toFloat hshort, bind_ok_eq, mapping, hschema, hid, hfields, hsha256,
    hlength, hrelpath, if_neg hdigits, if_neg hsigned, objectPath?_objectRelpath, hverify]
  exact ⟨_, rfl⟩

theorem receipts_after (h : Sound D s) {bytes : Bytes}
    (hsource : c.source = some bytes) (hid : hashDoc D (c.identity (D.ofBytes bytes)) = .ok id)
    (hf : s.receipt? id.str = some f) :
    (after D toFloat s c).receipts = s.receipts := by
  have hout := preserveExport_outcome D toFloat h c
  unfold Export.after
  generalize preserveExport D toFloat s c = act at hout ⊢
  cases hout with
  | @accepted b i v ha _ =>
    have hb := Option.some.inj (hsource.symm.trans ha.source)
    subst hb
    have hi := Except.ok.inj (hid.symm.trans ha.identity)
    subst hi
    have hnone : writesOf D s c bytes id = [] := by
      unfold writesOf
      rw [hf]
    rw [hnone]
    rfl
  | refused _ => rfl
  | orphaned _ _ _ _ => rfl
  | changed _ _ _ => rfl

def afterAll (s : Store) (cs : List Call) : Store := cs.foldl (after D toFloat) s

theorem Sound.afterAll (h : Sound D s) (cs : List Call) : Sound D (afterAll D toFloat s cs) := by
  induction cs generalizing s with
  | nil => exact h
  | cons c rest ih => exact ih (h.after D toFloat c)

theorem receipt?_afterAll (h : Sound D s) (cs : List Call) {id : PyStr}
    (hf : s.receipt? id = some f) :
    (Export.afterAll D toFloat s cs).receipt? id = some f := by
  induction cs generalizing s with
  | nil => exact hf
  | cons c rest ih => exact ih (h.after D toFloat c) (receipt?_after D toFloat h c hf)

structure SameSource (c c' : Call) : Prop where
  bytes : c.source = c'.source
  identity : ∀ sha256, c.identity sha256 = c'.identity sha256

/-- Whatever calls have been made on a store: its receipts are receipts, those that share
an identity have one content, each has its object and is verified; a call that returned
can be made again, whenever that is, without a new receipt; and a call that meets a
conflict leaves the store as it is. -/
theorem never_rebinds (cs : List Call) : let s := Export.afterAll D toFloat .empty cs
    (∀ e ∈ s.receipts, ∃ r : Receipt, e = (r.id.str, ⟨r.line, false⟩))
    ∧ (∀ r r', Stored s r → Stored s r' →
        SharesIdentity r.provider r'.provider r.messageId r'.messageId r.exportId r'.exportId →
        r.sha256 = r'.sha256)
    ∧ (∀ r, Stored s r →
        (∃ bytes, s.object? (objectRelpath r.sha256) = some bytes ∧ D.ofBytes bytes = r.sha256)
        ∧ ∃ v, verifyReceipt D toFloat s r.id.str = .ok v)
    ∧ (∀ c v, (preserveExport D toFloat s c).2 = .ok v → ∀ more c', SameSource c c' →
        let later := Export.afterAll D toFloat (after D toFloat s c) more
        (after D toFloat later c').receipts = later.receipts)
    ∧ ∀ c, (preserveExport D toFloat s c).2 = .error .sourceIdentityConflict →
        after D toFloat s c = s := by
  intro s
  have h : Sound D s := (Sound.empty D).afterAll D toFloat cs
  refine ⟨fun e he => ?_, h.bound, fun r hr => ?_, fun c v hv more c' hsame => ?_, fun c hc => ?_⟩
  · obtain ⟨r, hr, -⟩ := h.readable e he
    exact ⟨r, hr⟩
  · obtain ⟨bytes, hbytes, hcontent, -⟩ := h.kept r hr
    refine ⟨⟨bytes, hbytes, hcontent⟩, ?_⟩
    cases hf : s.receipt? r.id.str with
    | some f => exact verifyReceipt_ok D toFloat h hf
    | none => exact absurd rfl (not_mem_of_getItem? hf hr)
  · obtain ⟨bytes, id, ha, -, -, f, hf⟩ := receipt?_of_returned D toFloat h hv
    have hlater := receipt?_afterAll D toFloat (h.after D toFloat c) more hf
    refine receipts_after D toFloat ((h.after D toFloat c).afterAll D toFloat more)
      (hsame.bytes.symm.trans ha.source) ?_ hlater
    rw [← hsame.identity]
    exact ha.identity
  · have hout := preserveExport_outcome D toFloat h c
    unfold Export.after
    revert hc
    generalize preserveExport D toFloat s c = act at hout ⊢
    cases hout with
    | accepted _ _ => exact nofun
    | refused _ => exact fun _ => rfl
    | orphaned _ hkind _ _ => exact fun hc => absurd (Except.error.inj hc) hkind
    | changed _ hkind _ => exact fun hc => absurd (Except.error.inj hc) hkind

end Calls

end Centinal26.Export
