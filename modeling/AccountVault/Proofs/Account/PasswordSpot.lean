import Mathlib
import AccountVault.Proofs.Account.Acceptance
import AccountVault.Proofs.Security.Twins

/-!
# Reading up to a password and on

The text of a document is cut where the value of some password begins. Up to there the reader stops,
or it comes to the password in a state that what follows has no part in. A text in the place of the
password is taken whatever it says, and from there on it makes no difference to what the reader
does; a number is refused.
-/

namespace AccountVault

open Json Program

namespace Json

variable {σ : Type} {field : σ → String → Bytes → Except Stop (σ × Bytes)}
  {next : σ → String → Term → Option σ}

theorem Gap.endsNumber_quote {first : Bool} {gap : Bytes} (hg : Gap first gap) (rest : Bytes) :
    Scan.EndsNumber (gap ++ 0x22 :: rest) := by
  cases hg with
  | first h => exact h.endsNumber (Scan.endsNumber_cons (by decide))
  | next h h' => exact (Gap.next h h').endsNumber _

/-- The loop over members stops at one of those before the given member, or it comes to the member
in some state, with as many rounds left as there are bytes and some more. -/
theorem Field.allMembers_upTo
    (takes : ∀ state name t bytes, SpellsField t bytes →
      Concludes Scan.recordEnd (field state name) bytes (next state name t))
    {written : List (String × Term)} {bytes gap key : Bytes} {name : String}
    (h : Spells (.members true written) bytes) (hg : Gap written.isEmpty gap)
    (hk : SpellsChars name.toList key) (state : σ) :
    (∃ fault : Fault, ∀ rest, ∃ stop,
        allMembers field state (bytes ++ (gap ++ 0x22 :: (key ++ 0x22 :: rest))) = .error stop ∧
          stop.placed Scan.recordEnd = fault.ahead rest.length) ∨
      ∃ state' more, ∀ rest,
        allMembers field state (bytes ++ (gap ++ 0x22 :: (key ++ 0x22 :: rest))) =
          field state' name rest >>= fun x => members field (more + rest.length) false x.1 x.2 := by
  have shorter := length_le_of_spells h
  have rounds : ∀ rest : Bytes, (bytes ++ (gap ++ 0x22 :: (key ++ 0x22 :: rest))).length + 1 =
      (bytes.length - written.length + gap.length + key.length + 2 + rest.length) + 1 +
        written.length := by
    intro rest
    simp only [List.length_append, List.length_cons]
    omega
  have walks := walks_members takes h state
  generalize walk next state written = expected at walks
  cases walks with
  | stopped fault stops =>
    refine .inl ⟨fault.ahead (gap ++ 0x22 :: (key ++ [0x22])).length, fun rest => ?_⟩
    obtain ⟨stop, stopped, placed⟩ := stops
      (bytes.length - written.length + gap.length + key.length + 2 + rest.length + 1) _
      (hg.endsNumber_quote (key ++ 0x22 :: rest))
    refine ⟨stop, by rw [allMembers, rounds, stopped], placed.trans ?_⟩
    rw [← Fault.ahead_append]
    simp
  | @through state' through =>
    refine .inr ⟨state', bytes.length - written.length + gap.length + key.length + 2,
      fun rest => ?_⟩
    have first : (true && decide (written.length = 0)) = written.isEmpty := by
      cases written <;> rfl
    rw [allMembers, rounds, through _ _ (hg.endsNumber_quote _), first, members_member hg hk]

end Json

inductive AccountSpot : Bytes → Prop
  | mk {blanks bytes gap key before after : Bytes} {fields : List (String × Term)}
      (hb : Blanks blanks) (h : Spells (.members true fields) bytes) (hg : Gap fields.isEmpty gap)
      (hk : SpellsChars "apiPassword".toList key) (hb' : Blanks before) (ha : Blanks after) :
    AccountSpot
      (blanks ++ 0x7b :: (bytes ++ (gap ++ 0x22 :: (key ++ 0x22 :: (before ++ 0x3a :: after)))))

/-- What stands before the password of an account in the text of a document. -/
inductive PasswordSpot : Bytes → Prop
  | mk {blanks bytes gap key before account : Bytes} {earlier : List (String × Term)} {id : String}
      (hb : Blanks blanks) (h : Spells (.members true earlier) bytes) (hg : Gap earlier.isEmpty gap)
      (hk : SpellsChars id.toList key) (hb' : Blanks before) (spot : AccountSpot account) :
    PasswordSpot
      (blanks ++ 0x7b :: (bytes ++ (gap ++ 0x22 :: (key ++ 0x22 :: (before ++ 0x3a :: account)))))

def Account.fromPassword (draft : Draft) (rounds : Nat) (input : Bytes) : Read Account :=
  Field.enclosed Scan.recordEnd do
    let (password, rest) ← Field.lift (Field.optional Field.text input)
    let (d, rest) ← Field.members Draft.field rounds false
      { draft with apiPassword := some password }
      rest
    let a ← d.finish rest
    return (a, rest)

def Document.fromAccount (d : Document) (id : String) (rounds : Nat) (account : Read Account) :
    Read Document :=
  Field.enclosed Scan.recordEnd do
    let (a, rest) ← Field.lift account
    Field.members Document.field rounds false (d.insert id a) rest

theorem Account.Draft.field_password {before after : Bytes} (hb : Blanks before)
    (ha : Blanks after) (draft : Draft) (rest : Bytes) :
    draft.field "apiPassword" (before ++ 0x3a :: (after ++ rest)) =
      if draft.apiPassword.isSome then
        .error (.refusal (.repeatedField "apiPassword") (before ++ 0x3a :: (after ++ rest)))
      else Field.lift (Field.optional Field.text rest) >>= fun x =>
        .ok ({ draft with apiPassword := some x.1 }, x.2) := by
  have value : Field.value (Field.optional Field.text) (before ++ 0x3a :: (after ++ rest)) =
      Field.lift (Field.optional Field.text rest) := by
    rw [Field.value, Scan.colon_spelled hb]
    simp only [Field.optional_blanks Field.text ha]
  unfold field
  rw [if_neg (by decide), if_neg (by decide), if_pos rfl]
  cases draft.apiPassword.isSome with
  | true => rfl
  | false =>
    rw [Field.once_absent, value]
    rfl

theorem Account.read_spot {before : Bytes} (spot : AccountSpot before) :
    (∃ fault : Fault, ∀ rest, Account.read (before ++ rest) = .error (fault.ahead rest.length)) ∨
      ∃ draft more, ∀ rest,
        Account.read (before ++ rest) = Account.fromPassword draft (more + rest.length) rest := by
  obtain ⟨hb, h, hg, hk, hb', ha⟩ := spot
  rename_i blanks bytes gap key before after fields
  have start : ∀ rest, Account.read (blanks ++
      0x7b :: (bytes ++ (gap ++ 0x22 :: (key ++ 0x22 :: (before ++ 0x3a :: after)))) ++ rest) =
        Field.enclosed Scan.recordEnd (readRecord
          (bytes ++ (gap ++ 0x22 :: (key ++ 0x22 :: (before ++ 0x3a :: (after ++ rest)))))) := by
    intro rest
    rw [List.append_assoc, Account.read, Field.structured, Field.leading_blanks _ hb,
      List.cons_append, Field.leading_cons _ (by decide)]
    simp
  have shift : ∀ (fault : Fault) (rest : Bytes),
    fault.ahead (before ++ 0x3a :: (after ++ rest)).length =
      (fault.ahead (before ++ 0x3a :: after).length).ahead rest.length := by
    intro fault rest
    rw [← Fault.ahead_append, List.append_assoc, List.cons_append]
  rcases Field.allMembers_upTo Draft.concludes_field h hg hk {} with
    ⟨fault, stops⟩ | ⟨draft, more, goes⟩
  · refine .inl ⟨fault.ahead (before ++ 0x3a :: after).length, fun rest => ?_⟩
    obtain ⟨stop, stopped, placed⟩ := stops (before ++ 0x3a :: (after ++ rest))
    rw [start, readRecord, stopped, ← shift, ← placed]
    exact Field.enclosed_error _ stop
  · cases present : draft.apiPassword.isSome with
    | true =>
      refine .inl ⟨.before (.repeatedField "apiPassword") (0x3a :: after), fun rest => ?_⟩
      rw [start, readRecord, goes, draft.field_password hb' ha, if_pos present,
        ← Fault.before_append]
      refine (Field.enclosed_error _ _).trans (congrArg Except.error ?_)
      rw [Stop.placed, Scan.recordEnd, skipBlank_append_cons hb' (by decide)]
      rfl
    | false =>
      refine .inr ⟨draft, more + (before ++ 0x3a :: after).length, fun rest => ?_⟩
      have rounds : more + (before ++ 0x3a :: (after ++ rest)).length =
          more + (before ++ 0x3a :: after).length + rest.length := by
        simp only [List.length_append, List.length_cons]
        omega
      rw [start, readRecord, goes, draft.field_password hb' ha, if_neg (by simp [present]), rounds,
        fromPassword]
      cases Field.lift (Field.optional Field.text rest) <;> rfl

def Document.ending (read : Read Document) : Except Fault Document := readWhole (fun _ => read) []

theorem Document.parse_spot {before : Bytes} (spot : PasswordSpot before) :
    (∃ fault : Fault, ∀ rest, Document.parse (before ++ rest) = .error (fault.ahead rest.length)) ∨
      ∃ d id draft more more', ∀ rest, Document.parse (before ++ rest) =
        ending (fromAccount d id (more + rest.length)
          (Account.fromPassword draft (more' + rest.length) rest)) := by
  obtain ⟨hb, h, hg, hk, hb', spot⟩ := spot
  rename_i blanks bytes gap key before account earlier id
  have start : ∀ rest, Document.parse (blanks ++
      0x7b :: (bytes ++ (gap ++ 0x22 :: (key ++ 0x22 :: (before ++ 0x3a :: account)))) ++ rest) =
        ending (Field.enclosed Scan.recordEnd (Field.allMembers field empty
          (bytes ++ (gap ++ 0x22 :: (key ++ 0x22 :: (before ++ 0x3a :: (account ++ rest))))))) := by
    intro rest
    have read : Document.read (blanks ++
        0x7b :: (bytes ++ (gap ++ 0x22 :: (key ++ 0x22 :: (before ++ 0x3a :: account)))) ++ rest) =
          Field.enclosed Scan.recordEnd (Field.allMembers field empty
            (bytes ++
              (gap ++ 0x22 :: (key ++ 0x22 :: (before ++ 0x3a :: (account ++ rest)))))) := by
      rw [List.append_assoc, Document.read, Field.leading_blanks _ hb, List.cons_append,
        Field.leading_cons _ (by decide)]
      simp
    change ending (Document.read _) = _
    rw [read]
  have shift : ∀ (fault : Fault) (rest : Bytes),
      fault.ahead (before ++ 0x3a :: (account ++ rest)).length =
        (fault.ahead (before ++ 0x3a :: account).length).ahead rest.length := by
    intro fault rest
    rw [← Fault.ahead_append, List.append_assoc, List.cons_append]
  have entry : ∀ (d : Document) rest, d.field id (before ++ 0x3a :: (account ++ rest)) =
      Field.lift (Account.read (account ++ rest)) >>= fun x => .ok (d.insert id x.1, x.2) := by
    intro d rest
    rw [field, Field.value, Scan.colon_spelled hb']
    rfl
  rcases Field.allMembers_upTo concludes_field h hg hk empty with
    ⟨fault, stops⟩ | ⟨d, more, goes⟩
  · refine .inl ⟨fault.ahead (before ++ 0x3a :: account).length, fun rest => ?_⟩
    obtain ⟨stop, stopped, placed⟩ := stops (before ++ 0x3a :: (account ++ rest))
    rw [start, stopped, ← shift, ← placed, Field.enclosed_error]
    rfl
  · rcases Account.read_spot spot with ⟨fault, refused⟩ | ⟨draft, more', continues⟩
    · refine .inl ⟨fault, fun rest => ?_⟩
      rw [start, goes, entry, refused]
      rfl
    · refine .inr ⟨d, id, draft, more + (before ++ 0x3a :: account).length, more', fun rest => ?_⟩
      have rounds : more + (before ++ 0x3a :: (account ++ rest)).length =
          more + (before ++ 0x3a :: account).length + rest.length := by
        simp only [List.length_append, List.length_cons]
        omega
      rw [start, goes, entry, continues, rounds, fromAccount]
      cases Account.fromPassword draft (more' + rest.length) rest <;> rfl

inductive Agree {ε α β : Type} (values : α → β → Prop) :
    Except ε (α × Bytes) → Except ε (β × Bytes) → Prop
  | ok {a : α} {b : β} (h : values a b) (rest : Bytes) :
      Agree values (.ok (a, rest)) (.ok (b, rest))
  | error (e : ε) : Agree values (.error e) (.error e)

namespace Agree

variable {ε α β γ δ : Type} {values : α → β → Prop} {values' : γ → δ → Prop}

theorem bind {x : Except ε (α × Bytes)} {y : Except ε (β × Bytes)}
    {f : α × Bytes → Except ε (γ × Bytes)} {g : β × Bytes → Except ε (δ × Bytes)}
    (h : Agree values x y)
    (hf : ∀ a b rest, values a b → Agree values' (f (a, rest)) (g (b, rest))) :
    Agree values' (x >>= f) (y >>= g) := by
  cases h with
  | ok h rest => exact hf _ _ rest h
  | error e => exact .error e

theorem rfl (x : Except ε (α × Bytes)) : Agree Eq x x := by
  rcases x with e | ⟨a, rest⟩
  · exact .error e
  · exact .ok (Eq.refl a) rest

theorem lift {x : Read α} {y : Read β} (h : Agree values x y) :
    Agree values (Field.lift x) (Field.lift y) := by
  cases h with
  | ok h rest => exact .ok h rest
  | error fault => exact .error _

theorem enclosed (ending : Bytes → Option Fault × Bytes) {x : Except Stop (α × Bytes)}
    {y : Except Stop (β × Bytes)} (h : Agree values x y) :
    Agree values (Field.enclosed ending x) (Field.enclosed ending y) := by
  cases h with
  | ok h rest =>
    simp only [Field.enclosed]
    rcases ending rest with ⟨_ | fault, left⟩
    · exact .ok h left
    · exact .error fault
  | error stop =>
    rw [Field.enclosed_error, Field.enclosed_error]
    exact .error _

theorem members {field : α → String → Bytes → Except Stop (α × Bytes)} {states : α → α → Prop}
    (step : ∀ s t name input, states s t → Agree states (field s name input) (field t name input))
    {s t : α} (h : states s t) (rounds : Nat) (first : Bool) (input : Bytes) :
    Agree states (Field.members field rounds first s input)
      (Field.members field rounds first t input) := by
  induction rounds generalizing first s t input with
  | zero => exact .error _
  | succ rounds ih =>
    unfold Field.members
    split
    · exact .error _
    · exact .ok h _
    · split
      · exact .error _
      · rename_i name rest _
        have next := step s t name rest h
        generalize field s name rest = x, field t name rest = y at next
        cases next with
        | ok h rest => exact ih h false rest
        | error stop => exact .error stop

end Agree

namespace Account

structure Draft.Alike (d e : Draft) : Prop where
  type : d.accountType = e.accountType
  key : d.apiKey = e.apiKey
  password : d.apiPassword.map Option.isSome = e.apiPassword.map Option.isSome

theorem Draft.Alike.isSome {d e : Draft} (h : d.Alike e) :
    d.apiPassword.isSome = e.apiPassword.isSome := by
  have same := congrArg Option.isSome h.password
  simpa using same

theorem Draft.Alike.field {d e : Draft} (h : d.Alike e) (name : String) (input : Bytes) :
    Agree Draft.Alike (d.field name input) (e.field name input) := by
  unfold Draft.field
  rw [h.type, h.key, h.isSome]
  by_cases type : name = "accountType"
  · simp only [if_pos type]
    apply (Agree.rfl _).bind
    rintro n _ rest rfl
    exact .ok ⟨rfl, rfl, h.password⟩ rest
  simp only [if_neg type]
  by_cases key : name = "apiKey"
  · simp only [if_pos key]
    apply (Agree.rfl _).bind
    rintro s _ rest rfl
    exact .ok ⟨rfl, rfl, h.password⟩ rest
  simp only [if_neg key]
  by_cases password : name = "apiPassword"
  · simp only [if_pos password]
    apply (Agree.rfl _).bind
    rintro s _ rest rfl
    exact .ok ⟨rfl, rfl, rfl⟩ rest
  simp only [if_neg password]
  cases Field.skipped input with
  | error stop => exact .error stop
  | ok rest => exact .ok h rest

theorem Draft.Alike.finish {d e : Draft} (h : d.Alike e) (input : Bytes) :
    Agree (fun a b => a.outline = b.outline) (d.finish input >>= fun a => .ok (a, input))
      (e.finish input >>= fun a => .ok (a, input)) := by
  obtain ⟨_ | type, _ | key, password⟩ := d
  all_goals
    obtain ⟨type', key', password'⟩ := e
    obtain ⟨rfl, rfl, same⟩ := h
  · exact .error _
  · exact .error _
  · exact .error _
  · refine .ok ?_ input
    rcases password with _ | _ | _ <;> rcases password' with _ | _ | _ <;> simp_all [outline]

theorem optional_text_spelled {s : String} {text : Bytes} (h : Spells (.value (.text s)) text)
    (after : Bytes) : Field.optional Field.text (text ++ after) = .ok (some s, after) := by
  cases h with
  | @text _ bytes hk =>
    have read : Field.text (0x22 :: (bytes ++ 0x22 :: after)) = .ok (s, after) := by
      rw [Field.text, Field.leading_cons _ (by decide), if_pos rfl, Scan.text_spelled hk]
    rw [List.cons_append, List.append_assoc, List.singleton_append, Field.optional,
      skipBlank_cons (by decide)]
    simp [read]

theorem agree_fromPassword {s s' : String} {text text' : Bytes}
    (h : Spells (.value (.text s)) text) (h' : Spells (.value (.text s')) text') (after : Bytes)
    (draft : Draft) (rounds : Nat) :
    Agree (fun a b => a.outline = b.outline) (fromPassword draft rounds (text ++ after))
      (fromPassword draft rounds (text' ++ after)) := by
  unfold fromPassword
  rw [optional_text_spelled h, optional_text_spelled h']
  apply Agree.enclosed
  have alike : Draft.Alike { draft with apiPassword := some (some s) }
      { draft with apiPassword := some (some s') } := ⟨rfl, rfl, rfl⟩
  apply (Agree.members (fun _ _ name input same => same.field name input) alike rounds false
    after).bind
  intro d e rest same
  exact same.finish rest

end Account

namespace Document

theorem SameOutline.insert {d e : Document} (h : d.SameOutline e) (id : String) {a b : Account}
    (outline : a.outline = b.outline) : (d.insert id a).SameOutline (e.insert id b) := by
  intro id'
  rw [get?_insert, get?_insert]
  by_cases own : id' = id
  · rw [if_pos own, if_pos own]
    exact congrArg some outline
  · rw [if_neg own, if_neg own]
    exact h id'

theorem agree_fromAccount {x y : Read Account}
    (h : Agree (fun a b => a.outline = b.outline) x y) (d : Document) (id : String) (rounds : Nat) :
    Agree SameOutline (d.fromAccount id rounds x) (d.fromAccount id rounds y) := by
  apply Agree.enclosed
  apply h.lift.bind
  intro a b rest outline
  refine Agree.members ?_ ?_ rounds false rest
  · intro d e id input same
    apply (Agree.rfl _).bind
    rintro a _ rest rfl
    exact .ok (same.insert id rfl) rest
  · exact SameOutline.insert (fun _ => rfl) id outline

/-- Another text in the place of a password, as long as the first, makes another password in the
document or no difference at all. -/
theorem parse_alike {before : Bytes} (spot : PasswordSpot before) {s s' : String}
    {text text' : Bytes} (h : Spells (.value (.text s)) text)
    (h' : Spells (.value (.text s')) text') (long : text.length = text'.length) (after : Bytes) :
    (∃ fault, parse (before ++ (text ++ after)) = .error fault ∧
        parse (before ++ (text' ++ after)) = .error fault) ∨
      ∃ d e : Document, parse (before ++ (text ++ after)) = .ok d ∧
        parse (before ++ (text' ++ after)) = .ok e ∧ d.SameOutline e := by
  have length : (text ++ after).length = (text' ++ after).length := by
    rw [List.length_append, List.length_append, long]
  rcases parse_spot spot with ⟨fault, refused⟩ | ⟨d, id, draft, more, more', goes⟩
  · rw [refused, refused, length]
    exact .inl ⟨_, rfl, rfl⟩
  · rw [goes, goes, length]
    have agree := agree_fromAccount
      (Account.agree_fromPassword h h' after draft (more' + (text' ++ after).length)) d id
      (more + (text' ++ after).length)
    generalize fromAccount _ _ _ (Account.fromPassword _ _ (text ++ after)) = x,
      fromAccount _ _ _ (Account.fromPassword _ _ (text' ++ after)) = y at agree ⊢
    cases agree with
    | error fault => exact .inl ⟨fault, rfl, rfl⟩
    | @ok d e same rest =>
      simp only [ending, readWhole]
      split
      · exact .inr ⟨d, e, rfl, rfl, same⟩
      · exact .inl ⟨_, rfl, rfl⟩

end Document

theorem PasswordSpot.isBlankBody {before : Bytes} (spot : PasswordSpot before) (rest : Bytes) :
    Blank.isBlankBody (before ++ rest) = false := by
  obtain ⟨hb, h, hg, hk, hb', spot⟩ := spot
  rw [Blank.isBlankBody, List.all_eq_false]
  exact ⟨0x7b, by simp, by decide⟩

theorem Document.parse_number {before : Bytes} (spot : PasswordSpot before) (n : Numeral)
    (after : Bytes) : ∃ fault, parse (before ++ (n.text ++ after)) = .error fault := by
  obtain ⟨byte, rest, start, number⟩ := n.text_eq_cons
  have quote : byte ≠ 0x22 := by
    rintro rfl
    exact absurd number (by decide)
  have null : byte ≠ 0x6e := by
    rintro rfl
    exact absurd number (by decide)
  have refused : Field.optional Field.text (n.text ++ after) =
      .error (Field.unexpected "a string" byte (rest ++ after)) := by
    have blank := number.not_separator.1
    rw [start, List.cons_append, Field.optional, skipBlank_cons blank]
    simp only [if_neg null, Field.text, Field.leading_cons _ blank, if_neg quote]
  rcases parse_spot spot with ⟨fault, stops⟩ | ⟨d, id, draft, more, more', goes⟩
  · exact ⟨_, stops _⟩
  · rw [goes, Account.fromPassword, refused]
    exact ⟨_, rfl⟩

end AccountVault
