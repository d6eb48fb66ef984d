/-
A preservation that was cut off, and made again.
-/
import Centinal26.Export.Binding

namespace Centinal26.Export

open Py

-- == texts

section Encoding

theorem encodable_cons {c : Nat} {s : PyStr} :
    Encodable (c :: s) ↔ isScalar c = true ∧ Encodable s := by
  simp only [Py.Encodable, List.forall_mem_cons]

theorem encodable_of_literal {s : PyStr} (h : Encodable (stringLiteral false s)) : Encodable s := by
  intro c hc
  by_cases hlow : c < 128
  · simp only [isScalar, decide_eq_true_eq]
    omega
  · have hplain : escapeChar false c = [c] := by
      unfold escapeChar
      rw [if_neg (by omega), if_neg (by omega), if_neg (by omega), if_neg (by omega),
        if_neg (by omega), if_neg (by omega), if_neg (by omega), if_neg (by omega)]
      simp
    refine h c ?_
    unfold stringLiteral
    refine List.mem_append_left _ (List.mem_cons_of_mem _ (List.mem_flatMap.mpr ⟨c, hc, ?_⟩))
    rw [hplain]
    exact List.mem_singleton_self c

theorem encodable_literal_iff {s : PyStr} : Encodable (stringLiteral false s) ↔ Encodable s :=
  ⟨encodable_of_literal, encodable_stringLiteral⟩

end Encoding

theorem Hex.encodable (x : Hex) : Encodable x.str := by
  intro c hc
  have := x.digits c hc
  simp only [isScalar, decide_eq_true_eq]
  omega

theorem encodable_objectRelpath (x : Hex) : Encodable (objectRelpath x) := by
  unfold objectRelpath
  simp only [encodable_append]
  exact ⟨⟨⟨encodable_py _, fun c hc => x.encodable c (List.mem_of_mem_take hc)⟩,
    encodable_py _⟩, x.encodable⟩

theorem encodable_line_iff (r : Receipt) : Encodable r.line ↔
    Encodable r.provider ∧ Encodable ((optional r.exportId).text .canonical)
      ∧ Encodable ((optional r.messageId).text .canonical) ∧ Encodable r.ingestedAt
      ∧ Encodable ((optional r.messageDate).text .canonical) ∧ Encodable r.originalFilename
      ∧ Encodable r.retrievedAt ∧ Encodable ((optional r.subject).text .canonical) := by
  have hsize : Encodable (intRepr r.size) := (ascii_intRepr _).encodable
  have hsep : Encodable Style.canonical.itemSeparator := encodable_py ","
  have hkey : Encodable Style.canonical.keySeparator := encodable_py ":"
  have hascii : Style.canonical.ensureAscii = false := rfl
  have hopen : isScalar 123 = true := by decide
  have hclose : isScalar 125 = true := by decide
  have hbreak : isScalar 10 = true := by decide
  simp only [Receipt.line, Receipt.members, Json.text, memberTexts, joinWith, encodable_append,
    encodable_cons, encodable_nil, hascii, encodable_literal_iff, encodable_py, hsep, hkey,
    hopen, hclose, hbreak, hsize, r.sha256.encodable, r.id.encodable,
    encodable_objectRelpath, schema, if_true, true_and, and_true, and_assoc]

theorem encodable_line_of {r : Receipt} (h : Encodable r.line) {retrievedAt ingestedAt : PyStr}
    (hretrieved : Encodable retrievedAt) (hingested : Encodable ingestedAt) :
    Py.Encodable { r with retrievedAt := retrievedAt, ingestedAt := ingestedAt }.line := by
  rw [encodable_line_iff] at h ⊢
  obtain ⟨hprovider, hexport, hmessage, -, hdate, hname, -, hsubject⟩ := h
  exact ⟨hprovider, hexport, hmessage, hingested, hdate, hname, hretrieved, hsubject⟩

theorem encodable_retrieved {r : Receipt} (h : Encodable r.line) : Encodable r.retrievedAt := by
  rw [encodable_line_iff] at h
  exact h.2.2.2.2.2.2.1

theorem isShort_optional (o : Option PyStr) : (optional o).isShort = true := by
  cases o <;> rfl

theorem isShort_members (r : Receipt) :
    (Json.obj r.members).isShort = (Json.int r.size).isShort := by
  simp only [Receipt.members, Json.isShort, allShortMembers, isShort_optional, Bool.true_and,
    Bool.and_true]

-- == cuts

def Write.size : Write → Nat
  | .object _ bytes => bytes.length
  | .dropObject _ => 0
  | .receipt _ text => text.length
  | .index text => text.length

/-- Where a call is cut off: after so many writes, and perhaps so far into the next, with
or without some bytes of a further character. -/
structure Cut where
  done : Nat
  part : Option (Nat × Bool)

/-- The cut falls within the writes, and a write it falls into is not complete. -/
structure Cut.Of (cut : Cut) (ws : List Write) : Prop where
  done : cut.done ≤ ws.length
  part : ∀ n broken, cut.part = some (n, broken) → ∃ w, ws[cut.done]? = some w ∧ n < w.size

/-- The store a call leaves that was cut off. -/
def cutStore (s : Store) (ws : List Write) (cut : Cut) : Store :=
  match cut.part, ws[cut.done]? with
  | some (n, broken), some w => (s.applyAll (ws.take cut.done)).applyPart n broken w
  | _, _ => s.applyAll (ws.take cut.done)

/-- No file is partly written, and no receipt is the last thing that is. -/
def Cut.Clean (cut : Cut) (ws : List Write) : Prop :=
  cut.part = none ∧ ∀ id text, (ws.take cut.done).getLast? ≠ some (.receipt id text)

section Recovery

variable (D : Digests) (toFloat : PyStr → PyFloat)

/-- The index has a line for the receipt. -/
def Listed (s : Store) (id : PyStr) : Prop :=
  ∃ f doc, s.receipt? id = some f ∧ f.load toFloat .valueError = .ok doc
    ∧ ∃ line ∈ s.index, line.text.getLast? = some 10 ∧ line.load toFloat .valueError = .ok doc

def Call.again (c : Call) (retrievedNow ingestedNow : Text) : Call :=
  { c with retrievedNow := retrievedNow, ingestedNow := ingestedNow }

/-- The call can be made again, and its receipt is verified and listed. -/
def Recovers (s : Store) (c : Call) : Prop :=
  ∀ retrievedNow ingestedNow : Text,
    ∃ v, (preserveExport D toFloat s (c.again retrievedNow ingestedNow)).2 = .ok v
      ∧ (∃ verified, verifyReceipt D toFloat
          (after D toFloat s (c.again retrievedNow ingestedNow)) v.receiptId = .ok verified)
      ∧ Listed toFloat (after D toFloat s (c.again retrievedNow ingestedNow)) v.receiptId

/-- A call for another source: other content, another receipt, no identity in common. -/
structure Other (c o : Call) : Prop where
  content : ∀ bytes bytes', c.source = some bytes → o.source = some bytes' →
    D.ofBytes bytes ≠ D.ofBytes bytes'
  receipt : ∀ bytes bytes', c.source = some bytes → o.source = some bytes' →
    hashDoc D (c.identity (D.ofBytes bytes)) ≠ hashDoc D (o.identity (D.ofBytes bytes'))
  identity : ¬ SharesIdentity (strStrip c.provider) (strStrip o.provider)
    (normalizeOptional c.messageId) (normalizeOptional o.messageId)
    (normalizeOptional c.exportId) (normalizeOptional o.exportId)

/-- Calls for other sources that would have returned before still do. -/
def Unblocked (s t : Store) (c : Call) : Prop :=
  ∀ o v, (preserveExport D toFloat s o).2 = .ok v → Other D c o →
    ∃ v', (preserveExport D toFloat t o).2 = .ok v'

-- == clean cuts

variable {s : Store} {c : Call} {bytes : Bytes} {id : Hex}

theorem returned_of_accepts (h : Sound D s) (ha : Accepts D s c bytes id) :
    ∃ v, (preserveExport D toFloat s c).2 = .ok v ∧ v.receiptId = id.str := by
  have hout := preserveExport_outcome D toFloat h c
  generalize preserveExport D toFloat s c = act at hout ⊢
  cases hout with
  | @accepted b i v ha' hid =>
    have hb := Option.some.inj (ha.source.symm.trans ha'.source)
    subst hb
    have hi := Except.ok.inj (ha.identity.symm.trans ha'.identity)
    subst hi
    exact ⟨v, rfl, hid⟩
  | refused hnot => exact absurd ha (hnot _ _)
  | orphaned hnot _ _ _ => exact absurd ha (hnot _ _)
  | changed hnot _ _ => exact absurd ha (hnot _ _)

theorem listed_of_sound (h : Sound D s) {f : TextFile}
    (hf : s.receipt? id.str = some f) : Listed toFloat s id.str := by
  obtain ⟨r, hr, rfl, rfl, hshort⟩ := stored_of_receipt? D h hf
  refine ⟨_, _, hf, load_line toFloat hshort _, ⟨r.line, false⟩,
    (h.indexed _).mpr ⟨r, hr, rfl⟩, ?_, load_line toFloat hshort _⟩
  show ((Json.obj r.members).text .canonical ++ [10]).getLast? = some 10
  simp

theorem recovers_of_accepts (h : Sound D s)
    (ha : ∀ retrievedNow ingestedNow, Accepts D s (c.again retrievedNow ingestedNow) bytes id) :
    Recovers D toFloat s c := by
  intro retrievedNow ingestedNow
  obtain ⟨v, hv, hid⟩ := returned_of_accepts D toFloat h (ha retrievedNow ingestedNow)
  obtain ⟨b, i, ha', hid', -, f, hf⟩ := receipt?_of_returned D toFloat h hv
  have hsound := h.after D toFloat (c.again retrievedNow ingestedNow)
  refine ⟨v, hv, ?_⟩
  rw [hid']
  exact ⟨verifyReceipt_ok D toFloat hsound hf, listed_of_sound D toFloat hsound hf⟩

theorem Accepts.again (ha : Accepts D s c bytes id) (retrievedNow ingestedNow : Text) :
    Accepts D s (c.again retrievedNow ingestedNow) bytes id where
  provider := ha.provider
  source := ha.source
  identity := ha.identity
  unbound := ha.unbound
  duplicate := ha.duplicate
  fresh := by
    intro hnone
    obtain ⟨hobject, hshort, hline⟩ := ha.fresh hnone
    refine ⟨hobject, ?_, ?_⟩
    · rw [isShort_members] at hshort ⊢
      exact hshort
    · refine encodable_line_of hline ?_ ingestedNow.encodable
      have hretrieved := encodable_retrieved hline
      show Py.Encodable ((normalizeOptional c.retrievedAt).getD retrievedNow.str)
      change Py.Encodable ((normalizeOptional c.retrievedAt).getD c.retrievedNow.str) at hretrieved
      cases hgiven : normalizeOptional c.retrievedAt with
      | none => exact retrievedNow.encodable
      | some given =>
        rw [hgiven] at hretrieved
        exact hretrieved

theorem Accepts.transfer {t : Store} (ha : Accepts D s c bytes id)
    (hstored : ∀ r, Stored t r → Stored s r ∨ ¬ Conflicts r c (D.ofBytes bytes))
    (hreceipt : t.receipt? id.str = s.receipt? id.str)
    (hobject : t.object? (objectRelpath (D.ofBytes bytes))
      = s.object? (objectRelpath (D.ofBytes bytes))) : Accepts D t c bytes id where
  provider := ha.provider
  source := ha.source
  identity := ha.identity
  unbound := fun r hr => (hstored r hr).elim (ha.unbound r) fun hnot => hnot
  duplicate := by
    rw [hreceipt]
    exact ha.duplicate
  fresh := by
    rw [hreceipt, hobject]
    exact ha.fresh

theorem Unblocked.of_accepts {t : Store} (hs : Sound D s) (ht : Sound D t)
    (h : ∀ o bytes id, Accepts D s o bytes id → Other D c o → Accepts D t o bytes id) :
    Unblocked D toFloat s t c := by
  intro o v hv hother
  obtain ⟨bytes, id, ha, -⟩ := receipt?_of_returned D toFloat hs hv
  obtain ⟨v', hv', -⟩ := returned_of_accepts D toFloat ht (h o bytes id ha hother)
  exact ⟨v', hv'⟩

section Clean

variable {s : Store} {c : Call} {bytes : Bytes} {id : Hex}

abbrev receiptOf (D : Digests) (c : Call) (bytes : Bytes) (id : Hex) : Receipt :=
  c.receipt id (D.ofBytes bytes) bytes.length

abbrev withObject (D : Digests) (s : Store) (c : Call) (bytes : Bytes) : Store :=
  s.apply (.object (objectRelpath (D.ofBytes bytes)) c.copied)

theorem clean_start (h : Sound D s) (ha : Accepts D s c bytes id) :
    Recovers D toFloat s c ∧ Unblocked D toFloat s s c :=
  ⟨recovers_of_accepts D toFloat h fun t u => ha.again D t u, fun _ v hv _ => ⟨v, hv⟩⟩

theorem clean_object (h : Sound D s) (ha : Accepts D s c bytes id)
    (hreceipt : s.receipt? id.str = none)
    (hobject : s.object? (objectRelpath (D.ofBytes bytes)) = none) :
    Recovers D toFloat (withObject D s c bytes) c
      ∧ Unblocked D toFloat s (withObject D s c bytes) c := by
  obtain ⟨hcopied, hshort, hline⟩ := ha.fresh hreceipt
  rw [hobject] at hcopied
  have hsound : Sound D (withObject D s c bytes) := h.addObject D hobject hcopied.1
  have hat : ∀ x, (withObject D s c bytes).object? x
      = if x = objectRelpath (D.ofBytes bytes) then some c.copied else s.object? x :=
    fun x => getItem?_setItem _ _ _ _
  have haccepts : Accepts D (withObject D s c bytes) c bytes id :=
    ⟨ha.provider, ha.source, ha.identity, ha.unbound, ha.duplicate,
      fun _ => ⟨by rw [hat, if_pos rfl]; exact hcopied.2, hshort, hline⟩⟩
  refine ⟨recovers_of_accepts D toFloat hsound fun t u => haccepts.again D t u,
    Unblocked.of_accepts D toFloat h hsound fun o b i ho hother => ?_⟩
  refine ho.transfer D (fun r hr => Or.inl hr) rfl ?_
  rw [hat, if_neg]
  intro heq
  exact hother.content bytes b ha.source ho.source (objectRelpath_injective heq).symm

theorem clean_end (h : Sound D s) (ha : Accepts D s c bytes id) :
    Recovers D toFloat (s.applyAll (writesOf D s c bytes id)) c
      ∧ Unblocked D toFloat s (s.applyAll (writesOf D s c bytes id)) c := by
  have hsound := sound_writesOf D h ha
  cases hreceipt : s.receipt? id.str with
  | some f =>
    have hnone : writesOf D s c bytes id = [] := by
      unfold writesOf
      rw [hreceipt]
    rw [hnone]
    exact clean_start D toFloat h ha
  | none =>
    obtain ⟨hobject, -, -⟩ := ha.fresh hreceipt
    -- whether the object is new or not, the receipts and the other objects are known
    obtain ⟨t, ht, hreceipts, hobjects⟩ : ∃ t : Store, s.applyAll (writesOf D s c bytes id)
          = (t.apply (.receipt id.str (receiptOf D c bytes id).line)).apply
              (.index (receiptOf D c bytes id).line)
        ∧ t.receipts = s.receipts
        ∧ ∀ x, x ≠ objectRelpath (D.ofBytes bytes) → t.object? x = s.object? x := by
      unfold writesOf
      rw [hreceipt]
      cases s.object? (objectRelpath (D.ofBytes bytes)) with
      | some object => exact ⟨s, rfl, rfl, fun _ _ => rfl⟩
      | none =>
        refine ⟨withObject D s c bytes, rfl, rfl, fun x hx => ?_⟩
        show getItem? (setItem s.objects _ _) _ = _
        rw [getItem?_setItem, if_neg hx]
        rfl
    rw [ht] at hsound ⊢
    have hat : ∀ x, ((t.apply (.receipt id.str (receiptOf D c bytes id).line)).apply
        (.index (receiptOf D c bytes id).line)).receipt? x
        = if x = id.str then some ⟨(receiptOf D c bytes id).line, false⟩
          else s.receipt? x := by
      intro x
      show getItem? (setItem t.receipts _ _) _ = _
      rw [hreceipts]
      exact getItem?_setItem _ _ _ _
    have hstored : ∀ r, Stored ((t.apply (.receipt id.str (receiptOf D c bytes id).line)).apply
        (.index (receiptOf D c bytes id).line)) r →
        Stored s r ∨ r = receiptOf D c bytes id := by
      intro r hr
      change (r.id.str, _) ∈ setItem t.receipts _ _ at hr
      rw [hreceipts, setItem_new hreceipt, List.mem_append, List.mem_singleton] at hr
      exact hr.imp_right fun heq =>
        Receipt.line_injective (congrArg (fun e : PyStr × TextFile => e.2.text) heq)
    have haccepts : Accepts D ((t.apply (.receipt id.str (receiptOf D c bytes id).line)).apply
        (.index (receiptOf D c bytes id).line)) c bytes id := by
      refine ⟨ha.provider, ha.source, ha.identity, fun r hr => ?_, fun r hr => ?_, fun hnone => ?_⟩
      · rcases hstored r hr with hr | rfl
        · exact ha.unbound r hr
        · exact fun hc => hc.2 rfl
      · rw [hat, if_pos rfl] at hr
        have hline := congrArg TextFile.text (Option.some.inj hr)
        rw [← Receipt.line_injective hline]
        exact ⟨rfl, rfl⟩
      · rw [hat, if_pos rfl] at hnone
        cases hnone
    refine ⟨recovers_of_accepts D toFloat hsound fun u w => haccepts.again D u w,
      Unblocked.of_accepts D toFloat h hsound fun o b i ho hother => ?_⟩
    refine ho.transfer D (fun r hr => ?_) ?_ ?_
    · refine (hstored r hr).imp_right fun heq hc => ?_
      rw [heq] at hc
      exact hother.identity hc.1
    · rw [hat, if_neg]
      intro heq
      refine hother.receipt bytes b ha.source ho.source ?_
      rw [ha.identity, ho.identity, Hex.str_inj.mp heq]
    · refine hobjects _ fun heq => ?_
      exact hother.content bytes b ha.source ho.source (objectRelpath_injective heq).symm

end Clean

-- == other cuts

section Dirty

variable {t : Store} {c : Call} {bytes : Bytes} {id : Hex}

theorem returned_spec {v : PreservationResult} (hsource : c.source = some bytes)
    (hid : hashDoc D (c.identity (D.ofBytes bytes)) = .ok id)
    (hv : (preserveExport D toFloat t c).2 = .ok v) : v.receiptId = id.str
    ∧ (∀ e ∈ t.receipts, ∃ m, loadReceipt toFloat e.2 = .ok m)
    ∧ (∀ f, t.receipt? id.str = some f → after D toFloat t c = t)
    ∧ (t.receipt? id.str = none → ∀ object,
        t.object? (objectRelpath (D.ofBytes bytes)) = some object →
        object.length = bytes.length) := by
  unfold after
  unfold preserveExport at hv ⊢
  split at hv
  · cases hv
  · next hprovider =>
    rw [if_neg hprovider]
    rw [hsource] at hv ⊢
    simp only [hid] at hv ⊢
    unfold preserveLocked at hv ⊢
    cases hchecks : checkReceipts toFloat (strStrip c.provider) (normalizeOptional c.messageId)
        (normalizeOptional c.exportId) (D.ofBytes bytes).str (sortByName t.receipts) with
    | error e =>
      rw [hchecks] at hv
      cases hv
    | ok u =>
      rw [hchecks] at hv
      simp only at hv ⊢
      have hload : ∀ es : List (PyStr × TextFile), checkReceipts toFloat (strStrip c.provider)
          (normalizeOptional c.messageId) (normalizeOptional c.exportId)
          (D.ofBytes bytes).str es = .ok () → ∀ e ∈ es, ∃ m, loadReceipt toFloat e.2 = .ok m := by
        intro es
        induction es with
        | nil => exact nofun
        | cons e rest ih =>
          intro h e' he'
          rw [checkReceipts] at h
          obtain ⟨m, hm, h⟩ := of_bind_ok h
          obtain ⟨b, hb, h⟩ := of_bind_ok h
          rcases List.mem_cons.mp he' with rfl | he'
          · exact ⟨m, hm⟩
          · split at h
            · cases h
            · exact ih h e' he'
      refine ⟨?_, fun e he => hload _ hchecks e (mem_sortByName.mpr he), fun f hf => ?_,
        fun hnone object hobject => ?_⟩
      · cases hf : t.receipt? id.str with
        | some f =>
          rw [hf] at hv
          change duplicate D toFloat t f id (D.ofBytes bytes) bytes.length = .ok v at hv
          unfold duplicate at hv
          obtain ⟨j, -, hv⟩ := of_bind_ok hv
          obtain ⟨m, -, hv⟩ := of_bind_ok hv
          obtain ⟨content, -, hv⟩ := of_bind_ok hv
          split at hv
          · cases hv
          · obtain ⟨u, -, hv⟩ := of_bind_ok hv
            cases hv
            rfl
        | none =>
          rw [hf] at hv
          simp only [Act.andThen] at hv
          split at hv
          · split at hv
            · cases hv
              rfl
            · cases hv
          · cases hv
      · rw [hf]
        rfl
      · rw [hnone] at hv
        simp only [Act.andThen, preserveObject, hobject] at hv
        cases hverify : verifyExistingObject D (some object) (D.ofBytes bytes).str bytes.length with
        | error e =>
          rw [hverify] at hv
          cases hv
        | ok u =>
          obtain ⟨b, hb, -, hl⟩ := (verifyExistingObject_ok D).mp hverify
          cases hb
          exact hl

variable {v : Json} {f : TextFile} {invalid : EvidenceError} {r : Receipt}

theorem load_ok (h : f.load toFloat invalid = .ok v) (invalid' : EvidenceError) :
    f.load toFloat invalid' = .ok v := by
  unfold TextFile.load at h ⊢
  split at h
  · cases h
  · next hb =>
    rw [if_neg hb]
    split at h
    · exact h
    · cases h
    · cases h

/-- A receipt's line that was cut off reads back only where nothing but its line break is
missing. -/
theorem load_take (hshort : (Json.obj r.members).isShort = true) {n : Nat}
    {broken : Bool} (hn : n < r.line.length)
    (h : TextFile.load toFloat ⟨r.line.take n, broken⟩ invalid = .ok v) :
    r.line.take n = (Json.obj r.members).text .canonical ∧ v = .obj r.members := by
  have hlength : r.line.length = ((Json.obj r.members).text .canonical).length + 1 := by
    simp [Receipt.line]
  have htake : r.line.take n = ((Json.obj r.members).text .canonical).take n := by
    unfold Receipt.line
    rw [List.take_append_of_le_length (by omega)]
  unfold TextFile.load at h
  cases broken with
  | true => cases h
  | false =>
  rw [if_neg (by simp)] at h
  by_cases hwhole : n = ((Json.obj r.members).text .canonical).length
  · have hall : r.line.take n = (Json.obj r.members).text .canonical := by
      rw [htake, hwhole, List.take_length]
    have hread := loadsText_text toFloat (Receipt.scannable toFloat hshort) (s := []) (Or.inl rfl)
    rw [List.append_nil] at hread
    simp only [hall, hread] at h
    cases h
    exact ⟨hall, rfl⟩
  · have hcut := loadsText_cut toFloat (Receipt.scannable toFloat hshort)
      (List.take_append_drop n ((Json.obj r.members).text .canonical))
      (by
        intro hnil
        have := congrArg List.length hnil
        rw [List.length_drop, List.length_nil] at this
        omega)
    split at h
    · next v' hv' =>
      rw [htake] at hv'
      exact absurd hv' (hcut v')
    · cases h
    · cases h

theorem members_injective {r' : Receipt} (h : r.members = r'.members) : r = r' :=
  Receipt.line_injective (by rw [Receipt.line, Receipt.line, h])

theorem not_listed {s : Store} (hs : Sound D s)
    (hnew : s.receipt? r.id.str = none) (hshort : (Json.obj r.members).isShort = true)
    (hf : t.receipt? r.id.str = some f)
    (hload : f.load toFloat .valueError = .ok (.obj r.members))
    (hindex : ∀ line ∈ t.index, line ∈ s.index
      ∨ ∃ n broken, n < r.line.length ∧ line = ⟨r.line.take n, broken⟩) :
    ¬ Listed toFloat t r.id.str := by
  intro h
  obtain ⟨g, doc, hg, hdoc, line, hline, hbreak, hlineload⟩ := h
  rw [hf] at hg
  cases hg
  rw [hload] at hdoc
  cases hdoc
  rcases hindex line hline with hline | ⟨n, broken, hn, rfl⟩
  · obtain ⟨r', hr', rfl⟩ := (hs.indexed line).mp hline
    obtain ⟨r'', hr'', hshort'⟩ := hs.readable _ hr'
    have hsame : r' = r'' :=
      Receipt.line_injective (congrArg (fun e : PyStr × TextFile => e.2.text) hr'')
    subst hsame
    rw [load_line toFloat hshort'] at hlineload
    have hmembers : r' = r := members_injective (Json.obj.inj (Except.ok.inj hlineload))
    subst hmembers
    exact not_mem_of_getItem? hnew hr' rfl
  · obtain ⟨htext, -⟩ := load_take toFloat hshort hn hlineload
    rw [htext, Json.text] at hbreak
    simp only [List.getLast?_append, List.getLast?_singleton, Option.some_or] at hbreak
    cases hbreak

end Dirty

-- == recovery

-- == what keeps a call that is cut off from being made again

section Kept

variable {s : Store} {c : Call} {bytes : Bytes} {id : Hex} {n : Nat} {broken : Bool}
  (h : Sound D s) (ha : Accepts D s c bytes id) (hreceipt : s.receipt? id.str = none)

include ha hreceipt

/-- Part of an object is kept, and its length is not the source's. -/
theorem not_recovers_of_object {t : Store} (hn : n < bytes.length)
    (ht : t.receipts = s.receipts)
    (hobject : t.object? (objectRelpath (D.ofBytes bytes)) = some (c.copied.take n)) :
    ¬ Recovers D toFloat t c := by
  intro hrecovers
  obtain ⟨v, hv, -, -⟩ := hrecovers c.retrievedNow c.ingestedNow
  obtain ⟨-, -, -, hsize⟩ := returned_spec D toFloat ha.source ha.identity hv
  have hnone : t.receipt? id.str = none := by
    unfold Store.receipt? at hreceipt ⊢
    rw [ht]
    exact hreceipt
  have hlength := hsize hnone _ hobject
  rw [List.length_take] at hlength
  omega

include h

/-- The receipt is there, and is never listed. -/
theorem not_recovers_of_unlisted {t : Store} {f : TextFile} (hf : t.receipt? id.str = some f)
    (hload : f.load toFloat .valueError = .ok (.obj (receiptOf D c bytes id).members))
    (hindex : ∀ line ∈ t.index, line ∈ s.index
      ∨ ∃ n broken, n < (receiptOf D c bytes id).line.length
          ∧ line = ⟨(receiptOf D c bytes id).line.take n, broken⟩) :
    ¬ Recovers D toFloat t c := by
  intro hrecovers
  obtain ⟨-, hshort, -⟩ := ha.fresh hreceipt
  obtain ⟨v, hv, -, hlisted⟩ := hrecovers c.retrievedNow c.ingestedNow
  obtain ⟨hid, -, hsame, -⟩ := returned_spec D toFloat ha.source ha.identity hv
  have hafter : after D toFloat t (c.again c.retrievedNow c.ingestedNow) = t := hsame f hf
  rw [hafter, hid] at hlisted
  exact not_listed D toFloat h (r := receiptOf D c bytes id) hreceipt hshort hf hload hindex
    hlisted

variable {t : Store} (hindex : t.index = s.index)

include hindex

/-- Part of the receipt is kept: it is read with the others, and if it reads it is whole. -/
theorem not_recovers_of_receipt (hn : n < (receiptOf D c bytes id).line.length) :
    ¬ Recovers D toFloat (t.applyPart n broken
      (.receipt id.str (receiptOf D c bytes id).line)) c := by
  intro hrecovers
  obtain ⟨-, hshort, -⟩ := ha.fresh hreceipt
  have hat : (t.applyPart n broken (.receipt id.str (receiptOf D c bytes id).line)).receipt?
      id.str = some ⟨(receiptOf D c bytes id).line.take n, broken⟩ := by
    show getItem? (setItem t.receipts _ _) _ = _
    rw [getItem?_setItem, if_pos rfl]
  obtain ⟨v, hv, -, -⟩ := hrecovers c.retrievedNow c.ingestedNow
  obtain ⟨-, hloads, -, -⟩ := returned_spec D toFloat ha.source ha.identity hv
  obtain ⟨m, hm⟩ := hloads _ (mem_of_getItem? hat)
  obtain ⟨payload, hpayload, -⟩ := of_bind_ok hm
  obtain ⟨-, rfl⟩ := load_take toFloat hshort hn hpayload
  exact not_recovers_of_unlisted D toFloat h ha hreceipt hat (load_ok toFloat hpayload _)
    (fun line hline => Or.inl (hindex ▸ hline)) hrecovers

/-- The receipt is written, and nothing of its line. -/
theorem not_recovers_of_whole :
    ¬ Recovers D toFloat (t.apply (.receipt id.str (receiptOf D c bytes id).line)) c := by
  obtain ⟨-, hshort, -⟩ := ha.fresh hreceipt
  refine not_recovers_of_unlisted D toFloat h ha hreceipt
    (f := ⟨(receiptOf D c bytes id).line, false⟩) ?_ (load_line toFloat hshort _)
    fun line hline => Or.inl (hindex ▸ hline)
  show getItem? (setItem t.receipts _ _) _ = _
  rw [getItem?_setItem, if_pos rfl]

/-- The receipt is written, and part of its line. -/
theorem not_recovers_of_index (hn : n < (receiptOf D c bytes id).line.length) :
    ¬ Recovers D toFloat ((t.apply (.receipt id.str (receiptOf D c bytes id).line)).applyPart
      n broken (.index (receiptOf D c bytes id).line)) c := by
  obtain ⟨-, hshort, -⟩ := ha.fresh hreceipt
  refine not_recovers_of_unlisted D toFloat h ha hreceipt
    (f := ⟨(receiptOf D c bytes id).line, false⟩) ?_ (load_line toFloat hshort _)
    fun line hline => ?_
  · show getItem? (setItem t.receipts _ _) _ = _
    rw [getItem?_setItem, if_pos rfl]
  · change line ∈ t.index ++ [_] at hline
    rw [hindex, List.mem_append, List.mem_singleton] at hline
    exact hline.imp_right fun heq => ⟨n, broken, hn, heq⟩

/-- A cut of the last two writes, from a store that holds the object: before both, after
both, or the call cannot be made again. -/
theorem tail_iff_clean {k : Cut}
    (hcut : k.Of [.receipt id.str (receiptOf D c bytes id).line,
      .index (receiptOf D c bytes id).line])
    (hstart : Recovers D toFloat t c ∧ Unblocked D toFloat s t c)
    (hend : Recovers D toFloat (t.applyAll [.receipt id.str (receiptOf D c bytes id).line,
        .index (receiptOf D c bytes id).line]) c
      ∧ Unblocked D toFloat s (t.applyAll [.receipt id.str (receiptOf D c bytes id).line,
        .index (receiptOf D c bytes id).line]) c) :
    (Recovers D toFloat (cutStore t [.receipt id.str (receiptOf D c bytes id).line,
          .index (receiptOf D c bytes id).line] k) c
        ∧ Unblocked D toFloat s (cutStore t [.receipt id.str (receiptOf D c bytes id).line,
          .index (receiptOf D c bytes id).line] k) c)
      ↔ k.Clean [.receipt id.str (receiptOf D c bytes id).line,
        .index (receiptOf D c bytes id).line] := by
  obtain ⟨done, part⟩ := k
  cases part with
  | none =>
    rcases done with _ | _ | _ | done
    · exact ⟨fun _ => ⟨rfl, fun _ _ => by simp⟩, fun _ => hstart⟩
    · exact ⟨fun hr => absurd hr.1 (not_recovers_of_whole D toFloat h ha hreceipt hindex),
        fun hclean => absurd rfl (hclean.2 id.str (receiptOf D c bytes id).line)⟩
    · exact ⟨fun _ => ⟨rfl, fun _ _ => by simp⟩, fun _ => hend⟩
    · have hle := hcut.done
      simp only [List.length_cons, List.length_nil] at hle
      omega
  | some p =>
    obtain ⟨n, broken⟩ := p
    obtain ⟨w, hw, hn⟩ := hcut.part n broken rfl
    rcases done with _ | _ | _ | done
    · cases hw
      exact ⟨fun hr => absurd hr.1 (not_recovers_of_receipt D toFloat h ha hreceipt hindex hn),
        fun hclean => by cases hclean.1⟩
    · cases hw
      exact ⟨fun hr => absurd hr.1 (not_recovers_of_index D toFloat h ha hreceipt hindex hn),
        fun hclean => by cases hclean.1⟩
    · cases hw
    · have hle := hcut.done
      simp only [List.length_cons, List.length_nil] at hle
      omega

end Kept

/-- Nothing is written, so no cut changes anything. -/
theorem clean_of_nil {cut : Cut} (hcut : cut.Of []) : cut.Clean [] ∧ ∀ s, cutStore s [] cut = s := by
  obtain ⟨done, part⟩ := cut
  have hdone : done = 0 := Nat.le_zero.mp hcut.done
  have hpart : part = none := by
    cases hp : part with
    | none => rfl
    | some p =>
      obtain ⟨w, hw, -⟩ := hcut.part p.1 p.2 (by rw [hp])
      cases hw
  subst hdone hpart
  exact ⟨⟨rfl, fun _ _ => by simp⟩, fun _ => rfl⟩

theorem recovers_iff_clean {s : Store} (h : Sound D s) {c : Call} {bytes : Bytes} {id : Hex}
    (ha : Accepts D s c bytes id) {cut : Cut} (hcut : cut.Of (writesOf D s c bytes id)) :
    (Recovers D toFloat (cutStore s (writesOf D s c bytes id) cut) c
        ∧ Unblocked D toFloat s (cutStore s (writesOf D s c bytes id) cut) c)
      ↔ cut.Clean (writesOf D s c bytes id) := by
  have hstart := clean_start D toFloat h ha
  have hend := clean_end D toFloat h ha
  cases hreceipt : s.receipt? id.str with
  | some f =>
    have hnone : writesOf D s c bytes id = [] := by
      unfold writesOf
      rw [hreceipt]
    rw [hnone] at hcut ⊢
    obtain ⟨hclean, hsame⟩ := clean_of_nil hcut
    rw [hsame s]
    exact ⟨fun _ => hclean, fun _ => hstart⟩
  | none =>
  cases hobject : s.object? (objectRelpath (D.ofBytes bytes)) with
  | some object =>
    have hwrites : writesOf D s c bytes id = [.receipt id.str (receiptOf D c bytes id).line,
          .index (receiptOf D c bytes id).line] := by
      rw [writesOf, hreceipt, hobject]
      rfl
    rw [hwrites] at hcut hend ⊢
    exact tail_iff_clean D toFloat h ha hreceipt rfl hcut hstart hend
  | none =>
    obtain ⟨hfresh, -, -⟩ := ha.fresh hreceipt
    rw [hobject] at hfresh
    have hwrites : writesOf D s c bytes id = [.object (objectRelpath (D.ofBytes bytes)) c.copied,
          .receipt id.str (receiptOf D c bytes id).line,
          .index (receiptOf D c bytes id).line] := by
      rw [writesOf, hreceipt, hobject]
      rfl
    rw [hwrites] at hcut hend ⊢
    obtain ⟨done, part⟩ := cut
    cases done with
    | zero =>
      -- the object is not written, or in part
      cases part with
      | none => exact ⟨fun _ => ⟨rfl, fun _ _ => by simp⟩, fun _ => hstart⟩
      | some p =>
        obtain ⟨w, hw, hn⟩ := hcut.part p.1 p.2 rfl
        cases hw
        refine ⟨fun hr => absurd hr.1 (not_recovers_of_object D toFloat ha hreceipt
          (n := p.1) ?_ rfl ?_), fun hclean => by cases hclean.1⟩
        · rw [← hfresh.2]
          exact hn
        · show getItem? (setItem s.objects _ _) _ = _
          rw [getItem?_setItem, if_pos rfl]
    | succ done =>
      have htail := tail_iff_clean D toFloat h ha hreceipt (t := withObject D s c bytes) rfl
        (k := ⟨done, part⟩) ⟨Nat.le_of_succ_le_succ hcut.done, hcut.part⟩
        (clean_object D toFloat h ha hreceipt hobject) hend
      refine Iff.trans (Iff.of_eq ?_) (htail.trans ?_)
      · cases part <;> rfl
      · refine and_congr_right fun _ => forall_congr' fun i => forall_congr' fun text => ?_
        cases done <;> simp [List.take]

/-- After any calls, a call that goes through when it is not cut off can be made again
after a cut, and is verified and listed then, with no other source kept out meanwhile,
just where the cut left no file partly written and no receipt without its index line. -/
theorem cut_recovers_iff (cs : List Call) (c : Call) (v : PreservationResult)
    (h : (preserveExport D toFloat (afterAll D toFloat .empty cs) c).2 = .ok v) (cut : Cut)
    (hcut : cut.Of (preserveExport D toFloat (afterAll D toFloat .empty cs) c).1) :
    let s := afterAll D toFloat .empty cs
    let t := cutStore s (preserveExport D toFloat s c).1 cut
    (Recovers D toFloat t c ∧ Unblocked D toFloat s t c)
      ↔ cut.Clean (preserveExport D toFloat s c).1 := by
  intro s t
  have hsound : Sound D s := (Sound.empty D).afterAll D toFloat cs
  obtain ⟨bytes, id, ha, -, hwrites, -⟩ := receipt?_of_returned D toFloat hsound h
  rw [hwrites] at hcut
  have hiff := recovers_iff_clean D toFloat hsound ha hcut
  rw [← hwrites] at hiff
  exact hiff

end Recovery

-- == an object

section Sample

/-- A digest that ends with a digit of one's choice. -/
def digitHex (n : Nat) : Hex where
  str := List.replicate 63 48 ++ [48 + n % 10]
  length := rfl
  digits := by
    intro c hc
    rcases List.mem_append.mp hc with hc | hc
    · rw [List.eq_of_mem_replicate hc]
      decide
    · rw [List.mem_singleton.mp hc]
      omega

/-- Digests to try things with: the lengths of the texts. -/
def Digests.sample : Digests where
  ofBytes bytes := digitHex bytes.length
  ofText t := digitHex t.str.length

def sampleCall : Call where
  source := some [1, 2, 3]
  copied := [1, 2, 3]
  name := py "export.zip"
  provider := py "mail"
  messageId := some (py "m-1")
  exportId := none
  messageDate := none
  subject := none
  retrievedAt := none
  retrievedNow := Text.lit "2026-08-21T17:00:00Z"
  ingestedNow := Text.lit "2026-08-21T17:00:00Z"

/-- The call, cut off inside the object and made again, finds an object that is not the
one it names. -/
theorem cut_object_stays : (preserveExport .sample (fun _ => .nan)
      (cutStore .empty (preserveExport .sample (fun _ => .nan) .empty sampleCall).1
        ⟨0, some (2, false)⟩) sampleCall).2
      = .error (.objectIntegrity (digitHex 3).str) := by
  decide +kernel

theorem cut_recovers_sample :
    let t := cutStore .empty (preserveExport .sample (fun _ => .nan) .empty sampleCall).1
      ⟨1, none⟩
    (Recovers .sample (fun _ => .nan) t sampleCall
        ∧ Unblocked .sample (fun _ => .nan) .empty t sampleCall)
      ↔ Cut.Clean ⟨1, none⟩ (preserveExport .sample (fun _ => .nan) .empty sampleCall).1 :=
  cut_recovers_iff .sample (fun _ => .nan) [] sampleCall
    (resultOf .preserved (digitHex 131) (digitHex 3) 3) (by decide +kernel) ⟨1, none⟩
    ⟨by decide +kernel, fun _ _ h => by cases h⟩

end Sample

end Centinal26.Export
