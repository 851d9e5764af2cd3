import Mathlib
import AccountVault.Proofs.Account.Entries
import AccountVault.Proofs.Json.Values
import AccountVault.Proofs.Text.ByteOrder

/-!
# The written forms are canonical

Every document, account and answer is read back from its text as it was, provided the numbers are in
the range of their types. The text of a document has each id once, in the order of the bytes of the
ids, so it depends only on the map that the document is: two bodies for one map are rewritten to the
same bytes, and a body that has been rewritten once stays as it is.
-/

namespace AccountVault

open Json

namespace Json.Field

theorem short_writeNumber {n : Nat} (small : n < 65536) {rest : Bytes} (h : Scan.EndsNumber rest) :
    short (writeNumber (.integer n) ++ rest) = .ok (n, rest) := by
  have fits : n < Number.unsignedBound := small.trans_le (by decide)
  have read := Scan.number_digits false fits h
  obtain ⟨c, cs, hc⟩ := List.exists_cons_of_ne_nil (Nat.toDigits_ne_nil (n := n) (b := 10))
  have digit : Scan.isDigit (asciiByte c) = true :=
    isDigit_asciiByte (Nat.isDigit_of_mem_toDigits (b := 10) (n := n) (by decide) (by decide)
      (by simp [hc]))
  have notMinus : asciiByte c ≠ 0x2d := by
    intro same
    rw [same] at digit
    exact absurd digit (by decide)
  have written : writeNumber (.integer n) = (Nat.toDigits 10 n).map asciiByte := by
    rw [writeNumber_eq, Number.chars, Number.integerChars, if_neg (by omega), Int.natAbs_natCast]
  rw [hc, List.map_cons, List.cons_append] at read
  rw [written, hc, List.map_cons, List.cons_append, short, leading,
    skipBlank_cons (IsNumberByte.not_separator (.inl digit)).1]
  simp only [digit, or_true, if_true, if_neg notMinus, read, Scan.whole]
  rw [if_neg (by decide)]
  simp only
  rw [if_pos (by omega), Int.toNat_natCast]

theorem boolean_write (b : Bool) (rest : Bytes) :
    boolean ((Value.boolean b).write ++ rest) = .ok (b, rest) := by
  cases b with
  | true =>
    rw [Value.write, List.cons_append, boolean, leading, skipBlank_cons (by decide)]
    rfl
  | false =>
    rw [Value.write, List.cons_append, boolean, leading, skipBlank_cons (by decide)]
    rfl

end Json.Field

theorem Account.parse_write {a : Account} (h : a.accountType.InRange) :
    Account.parse a.write = .ok a :=
  readWhole_of_read (Account.read_write h [])

theorem Document.optional_write {d e : Document} {rest : Bytes}
    (read : Document.read (d.write ++ rest) = .ok (e, rest)) :
    Field.optional Document.read (d.write ++ rest) = .ok (some e, rest) := by
  rw [Document.write_append] at read ⊢
  rw [Field.optional, skipBlank_cons (by decide)]
  simp [read]

theorem HealthAnswer.parse_write (r : HealthAnswer) : HealthAnswer.parse r.write = .ok r := by
  have taken : Field.Takes Draft.field {} [("status", .text r.status),
      ("dataKeyConfigured", .boolean r.dataKeyConfigured),
      ("apiDocsLoaded", .boolean r.apiDocsLoaded)]
      ⟨some r.status, some r.dataKeyConfigured, some r.apiDocsLoaded⟩ := by
    refine .cons (t := ⟨some r.status, none, none⟩) (fun after _ => ?_)
      (.cons (t := ⟨some r.status, some r.dataKeyConfigured, none⟩) (fun after _ => ?_)
        (.cons (fun after _ => ?_) .nil))
    · simp [Draft.field, Field.once_absent, Field.value_cons, Value.write, Field.text_writeText,
        Field.lift]
    · simp [Draft.field, Field.once_absent, Field.value_cons, Field.boolean_write, Field.lift]
    · simp [Draft.field, Field.once_absent, Field.value_cons, Field.boolean_write, Field.lift]
  refine readWhole_of_read (Field.structured_write ?_)
  rw [readRecord, taken.allMembers]
  rfl

theorem ErrorAnswer.parse_write {r : ErrorAnswer} (h : r.statusCode < 65536) :
    ErrorAnswer.parse r.write = .ok r := by
  have taken : Field.Takes Draft.field {} [("message", .text r.message),
      ("statusCode", shortValue r.statusCode)] ⟨some r.message, some r.statusCode⟩ := by
    refine .cons (t := ⟨some r.message, none⟩) (fun after _ => ?_)
      (.cons (fun after ends => ?_) .nil)
    · simp [Draft.field, Field.once_absent, Field.value_cons, Value.write, Field.text_writeText,
        Field.lift]
    · simp [Draft.field, Field.once_absent, Field.value_cons, Value.write, shortValue,
        Field.short_writeNumber h ends, Field.lift]
  refine readWhole_of_read (Field.structured_write ?_)
  rw [readRecord, taken.allMembers]
  rfl

namespace AccountAnswer

structure InRange (r : AccountAnswer) : Prop where
  statusCode : r.statusCode < 65536
  account : ∀ d ∈ r.account, d.InRange

theorem takes_account {account : Option Document} {f : Document → Document}
    (read : ∀ d ∈ account, ∀ rest, Document.read (d.write ++ rest) = .ok (f d, rest)) :
    Field.Takes Draft.field {} (optionalField "account" Document.toValue account)
      { account := (account.map f).map some } := by
  cases hd : account with
  | none => exact .nil
  | some d =>
    refine .cons (fun after _ => ?_) .nil
    have read : Field.optional Document.read (d.toValue.write ++ after) = .ok (some (f d), after) :=
      Document.optional_write (read d hd after)
    simp [Draft.field, Field.once_absent, Field.value_cons, read, Field.lift]

theorem takes_message (a : Option (Option Document)) (n : Nat) (message : Option String) :
    Field.Takes Draft.field ⟨a, some n, none⟩ (optionalField "message" .text message)
      ⟨a, some n, message.map some⟩ := by
  cases message with
  | none => exact .nil
  | some m =>
    refine .cons (fun after _ => ?_) .nil
    simp [Draft.field, Field.once_absent, Field.value_cons, Value.write, Field.optional_writeText,
      Field.lift]

theorem parse_write_of {r : AccountAnswer} {f : Document → Document} (small : r.statusCode < 65536)
    (read : ∀ d ∈ r.account, ∀ rest, Document.read (d.write ++ rest) = .ok (f d, rest)) :
    AccountAnswer.parse r.write = .ok { r with account := r.account.map f } := by
  have taken : Field.Takes Draft.field {} (optionalField "account" Document.toValue r.account ++
      ("statusCode", shortValue r.statusCode) :: optionalField "message" .text r.message)
      ⟨(r.account.map f).map some, some r.statusCode, r.message.map some⟩ := by
    refine (takes_account read).append (.cons (fun after ends => ?_) (takes_message _ _ _))
    simp [Draft.field, Field.once_absent, Field.value_cons, Value.write, shortValue,
      Field.short_writeNumber small ends, Field.lift]
  refine readWhole_of_read (Field.structured_write ?_)
  rw [readRecord, taken.allMembers]
  obtain ⟨_ | d, statusCode, _ | message⟩ := r <;> rfl

theorem parse_write {r : AccountAnswer} (h : r.InRange) : AccountAnswer.parse r.write = .ok r := by
  have read := parse_write_of (f := id) h.statusCode fun d hd =>
    Document.read_write (h.account d hd)
  rwa [Option.map_id, id] at read

theorem parse_error {e : ErrorAnswer} (h : e.statusCode < 65536) :
    AccountAnswer.parse e.write = .ok ⟨none, e.statusCode, some e.message⟩ := by
  have taken : Field.Takes Draft.field {} [("message", .text e.message),
      ("statusCode", shortValue e.statusCode)]
      ⟨none, some e.statusCode, some (some e.message)⟩ := by
    refine .cons (t := ⟨none, none, some (some e.message)⟩) (fun after _ => ?_)
      (.cons (fun after ends => ?_) .nil)
    · simp [Draft.field, Field.once_absent, Field.value_cons, Value.write, Field.optional_writeText,
        Field.lift]
    · simp [Draft.field, Field.once_absent, Field.value_cons, Value.write, shortValue,
        Field.short_writeNumber h ends, Field.lift]
  refine readWhole_of_read (Field.structured_write ?_)
  rw [readRecord, taken.allMembers]
  rfl

end AccountAnswer

namespace Document

def rewrite (body : Bytes) : Except Json.Fault Bytes := (parse body).map write

theorem read?_write {d : Document} (h : d.InRange) :
    Value.read? d.write = some (.record (members d.entries)) := by
  have fits : Value.Fits Value.deepest (.record (members d.entries)) := by
    refine .record (fun m hm => ?_)
    obtain ⟨x, hx, rfl⟩ := List.mem_map.1 hm
    refine .record (fun field hf => ?_)
    have inRange := h x hx
    obtain ⟨id, accountType, apiKey, _ | password⟩ := x
    · simp [optionalField] at hf
      rcases hf with rfl | rfl
      · exact .number inRange
      · exact .text _
    · simp [optionalField] at hf
      rcases hf with rfl | rfl | rfl
      · exact .number inRange
      · exact .text _
      · exact .text _
  exact Value.read?_write fits

theorem ids_ordered (d : Document) :
    ((members d.entries).map fun m => Utf8.encode m.1).Pairwise (· < ·) := by
  rw [members, List.map_map, List.pairwise_map]
  exact d.ordered.imp fun below => Utf8.encode_lt_encode below

theorem rewrite_eq_of_get? {body body' : Bytes} {d d' : Document} (parsed : parse body = .ok d)
    (parsed' : parse body' = .ok d') (same : ∀ id, d.get? id = d'.get? id) :
    rewrite body = rewrite body' := by
  obtain rfl := ext_get? same
  rw [rewrite, rewrite, parsed, parsed']

theorem rewrite_rewrite {body : Bytes} {d : Document} (parsed : parse body = .ok d)
    (h : d.InRange) : ∃ text, rewrite body = .ok text ∧ rewrite text = .ok text := by
  have once : rewrite body = .ok d.write := by
    rw [rewrite, parsed]
    rfl
  have again : rewrite d.write = .ok d.write := by
    rw [rewrite, parse_write h]
    rfl
  exact ⟨d.write, once, again⟩

end Document

/-- The written forms are canonical: what is written is read back as it was; the text of a document
has its ids in strictly increasing order of their bytes; bodies for the same map are rewritten to
the same bytes, and rewriting again changes nothing. -/
theorem written_forms_canonical :
    (∀ d : Document, d.InRange → Document.parse d.write = .ok d ∧
      ∃ members, Value.read? d.write = some (.record members) ∧
        members.map Prod.fst = d.entries.map Prod.fst ∧
        (members.map fun m => Utf8.encode m.1).Pairwise (· < ·)) ∧
    (∀ a : Account, a.accountType.InRange → Account.parse a.write = .ok a) ∧
    (∀ r : AccountAnswer, r.InRange → AccountAnswer.parse r.write = .ok r) ∧
    (∀ r : ErrorAnswer, r.statusCode < 65536 → ErrorAnswer.parse r.write = .ok r) ∧
    (∀ r : HealthAnswer, HealthAnswer.parse r.write = .ok r) ∧
    (∀ (body body' : Bytes) (d d' : Document), Document.parse body = .ok d →
      Document.parse body' = .ok d' → (∀ id, d.get? id = d'.get? id) →
      Document.rewrite body = Document.rewrite body') ∧
    (∀ (body : Bytes) (d : Document), Document.parse body = .ok d → d.InRange →
      ∃ text, Document.rewrite body = .ok text ∧ Document.rewrite text = .ok text) := by
  refine ⟨fun d h => ⟨Document.parse_write h, _, Document.read?_write h, ?_, d.ids_ordered⟩,
    fun a h => Account.parse_write h, fun r h => AccountAnswer.parse_write h,
    fun r h => ErrorAnswer.parse_write h, HealthAnswer.parse_write,
    fun body body' d d' => Document.rewrite_eq_of_get?, fun body d => Document.rewrite_rewrite⟩
  simp [Document.members]

theorem written_forms_canonical_extremes :
    let d := (Document.single "𝄞" ⟨.integer 18446744073709551615, "\n", none⟩).insert "\"\\\x01"
      ⟨.integer (-9223372036854775808), "", some "ﬀ"⟩
    Document.parse d.write = .ok d ∧
      AccountAnswer.parse (AccountAnswer.write ⟨some d, 65535, none⟩) = .ok ⟨some d, 65535, none⟩ ∧
      ∃ text, Document.rewrite d.write = .ok text ∧ Document.rewrite text = .ok text := by
  intro d
  obtain ⟨documents, -, answers, -, -, -, rewritten⟩ := written_forms_canonical
  have inRange : d.InRange := by
    refine Document.InRange.insert ?_ _ ⟨by decide, by decide⟩
    intro x hx
    obtain rfl := List.mem_singleton.1 hx
    exact ⟨by decide, by decide⟩
  have parsed := (documents d inRange).1
  refine ⟨parsed, answers _ ⟨by decide, ?_⟩, rewritten _ d parsed inRange⟩
  intro e he
  obtain rfl := Option.some.inj he
  exact inRange

end AccountVault
