import Mathlib
import AccountVault.Proofs.Account.Entries
import AccountVault.Proofs.Json.Fields

/-!
# Which terms are accounts and documents

A term is an account if its known fields stand in it as they should: each at most once, the type and
the key exactly once, and each with a value of its own type. Other members do not matter. A document
is a record all of whose members are accounts, those that a later member of the same name replaces
included.
-/

namespace AccountVault

open Json

namespace Json.Term

def named (name : String) (members : List (String × Term)) : List Term :=
  (members.filter (·.1 = name)).map (·.2)

theorem named_cons (name : String) (m : String × Term) (members : List (String × Term)) :
    named name (m :: members) =
      if m.1 = name then m.2 :: named name members else named name members := by
  unfold named
  split_ifs with same <;> simp [same]

end Json.Term

namespace Account

def firstOnly {α : Type} (present : Bool) (value : Option α) : Option α :=
  if present then none else value

def slot {α : Type} (read : Term → Option α) (held : Option α) (values : List Term) :
    Option (Option α) :=
  values.foldlM (fun held t => (firstOnly held.isSome (read t)).map some) held

theorem slot_nil {α : Type} (read : Term → Option α) (held : Option α) :
    slot read held [] = some held := rfl

theorem slot_cons {α : Type} (read : Term → Option α) (held : Option α) (t : Term)
    (values : List Term) :
    slot read held (t :: values) =
      (firstOnly held.isSome (read t)).bind fun a => slot read (some a) values := by
  rw [slot, List.foldlM_cons]
  cases firstOnly held.isSome (read t) <;> rfl

theorem slot_some_cons {α : Type} (read : Term → Option α) (a : α) (t : Term)
    (values : List Term) : slot read (some a) (t :: values) = none := by
  rw [slot_cons]
  rfl

theorem slot_none_eq_some_iff {α : Type} {read : Term → Option α} {values : List Term}
    {held : Option α} :
    slot read none values = some held ↔
      (values = [] ∧ held = none) ∨ ∃ t a, values = [t] ∧ read t = some a ∧ held = some a := by
  match values with
  | [] =>
    constructor
    · rintro ⟨⟩
      exact .inl ⟨rfl, rfl⟩
    · rintro (⟨-, rfl⟩ | ⟨t, a, same, -⟩)
      · rfl
      · cases same
  | [t] =>
    rw [slot_cons]
    cases value : read t with
    | none => simp [firstOnly, value]
    | some a => simp [firstOnly, value, slot_nil, eq_comm]
  | t :: u :: values =>
    rw [slot_cons]
    cases value : read t with
    | none => simp [firstOnly]
    | some a => simp [firstOnly, slot_some_cons]

def Draft.next (d : Draft) (name : String) (t : Term) : Option Draft :=
  if name = "accountType" then
    (firstOnly d.accountType.isSome t.number?).map fun n => { d with accountType := some n }
  else if name = "apiKey" then
    (firstOnly d.apiKey.isSome t.text?).map fun s => { d with apiKey := some s }
  else if name = "apiPassword" then
    (firstOnly d.apiPassword.isSome t.optionalText?).map fun s => { d with apiPassword := some s }
  else some d

theorem Draft.concludes_field (d : Draft) (name : String) (t : Term) (bytes : Bytes)
    (h : SpellsField t bytes) :
    Concludes Scan.recordEnd (d.field name) bytes (d.next name t) := by
  unfold field next
  by_cases type : name = "accountType"
  · simp only [if_pos type]
    exact (Field.concludes_once name _ Field.number_blanks Field.decides_number h).map
      fun n => { d with accountType := some n }
  simp only [if_neg type]
  by_cases key : name = "apiKey"
  · simp only [if_pos key]
    exact (Field.concludes_once name _ Field.text_blanks Field.decides_text h).map
      fun s => { d with apiKey := some s }
  simp only [if_neg key]
  by_cases password : name = "apiPassword"
  · simp only [if_pos password]
    exact (Field.concludes_once name _ (Field.optional_blanks Field.text) Field.decides_optionalText
      h).map fun s => { d with apiPassword := some s }
  simp only [if_neg password]
  refine .taken fun after ends => ?_
  rw [Field.skipped_spelled h ends]
  rfl

def Draft.account? (d : Draft) : Option Account := do
  return ⟨← d.accountType, ← d.apiKey, d.apiPassword.getD none⟩

theorem Draft.walk_next (d : Draft) (members : List (String × Term)) :
    Field.walk Draft.next d members = do
      let accountType ← slot Term.number? d.accountType (Term.named "accountType" members)
      let apiKey ← slot Term.text? d.apiKey (Term.named "apiKey" members)
      let apiPassword ← slot Term.optionalText? d.apiPassword (Term.named "apiPassword" members)
      return ⟨accountType, apiKey, apiPassword⟩ := by
  induction members generalizing d with
  | nil => rfl
  | cons m members ih =>
    obtain ⟨name, t⟩ := m
    rw [Field.walk, List.foldlM_cons]
    change (d.next name t).bind (fun d => Field.walk Draft.next d members) = _
    simp only [Term.named_cons, next]
    by_cases type : name = "accountType"
    · subst type
      simp only [if_true, slot_cons, String.reduceEq, if_false]
      cases firstOnly d.accountType.isSome t.number? with
      | none => rfl
      | some n => exact ih _
    simp only [if_neg type]
    by_cases key : name = "apiKey"
    · subst key
      simp only [if_true, slot_cons, String.reduceEq, if_false]
      cases firstOnly d.apiKey.isSome t.text? with
      | none => cases slot Term.number? d.accountType (Term.named "accountType" members) <;> rfl
      | some s => exact ih _
    simp only [if_neg key]
    by_cases password : name = "apiPassword"
    · subst password
      simp only [if_true, slot_cons]
      cases firstOnly d.apiPassword.isSome t.optionalText? with
      | none =>
        cases slot Term.number? d.accountType (Term.named "accountType" members) with
        | none => rfl
        | some n => cases slot Term.text? d.apiKey (Term.named "apiKey" members) <;> rfl
      | some s => exact ih _
    simp only [if_neg password]
    exact ih d

end Account

namespace Json.Term

inductive IsPassword : List Term → Option String → Prop
  | absent : IsPassword [] none
  | null : IsPassword [.null] none
  | text (s : String) : IsPassword [.text s] (some s)

/-- A record whose known members are those of the account. -/
inductive Describes : Term → Account → Prop
  | mk {members : List (String × Term)} {n : Numeral} {number : Json.Number} {key : String}
      {password : Option String} (type : named "accountType" members = [.number n])
      (value : n.value? = some number) (text : named "apiKey" members = [.text key])
      (secret : IsPassword (named "apiPassword" members) password) :
    Describes (.record members) ⟨number, key, password⟩

def recorded? (members : List (String × Term)) : Option Account :=
  (Field.walk Account.Draft.next {} members).bind Account.Draft.account?

def listedPassword? (type : Json.Number) (key : String) : List Term → Option Account
  | [] => some ⟨type, key, none⟩
  | password :: others =>
    password.optionalText?.bind fun p => if others = [] then some ⟨type, key, p⟩ else none

def listedKey? (type : Json.Number) : List Term → Option Account
  | [] => none
  | key :: others => key.text?.bind fun s => listedPassword? type s others

def listed? : List Term → Option Account
  | [] => none
  | type :: others => type.number?.bind fun n => listedKey? n others

def account? : Term → Option Account
  | list items => listed? items
  | record members => recorded? members
  | _ => none

theorem number?_eq_some_iff {t : Term} {x : Json.Number} :
    t.number? = some x ↔ ∃ n, t = .number n ∧ n.value? = some x := by
  cases t <;> simp [number?]

theorem text?_eq_some_iff {t : Term} {s : String} : t.text? = some s ↔ t = .text s := by
  cases t <;> simp [text?]

theorem slot_number?_iff {values : List Term} {x : Json.Number} :
    Account.slot number? none values = some (some x) ↔
      ∃ n, values = [.number n] ∧ n.value? = some x := by
  rw [Account.slot_none_eq_some_iff]
  constructor
  · rintro (⟨-, ⟨⟩⟩ | ⟨t, _, rfl, read, ⟨⟩⟩)
    obtain ⟨n, rfl, value⟩ := number?_eq_some_iff.1 read
    exact ⟨n, rfl, value⟩
  · rintro ⟨n, rfl, value⟩
    exact .inr ⟨_, x, rfl, value, rfl⟩

theorem slot_text?_iff {values : List Term} {s : String} :
    Account.slot text? none values = some (some s) ↔ values = [.text s] := by
  rw [Account.slot_none_eq_some_iff]
  constructor
  · rintro (⟨-, ⟨⟩⟩ | ⟨t, _, rfl, read, ⟨⟩⟩)
    rw [text?_eq_some_iff.1 read]
  · rintro rfl
    exact .inr ⟨_, s, rfl, rfl, rfl⟩

theorem slot_optionalText?_iff {values : List Term} {password : Option String} :
    (∃ held, Account.slot optionalText? none values = some held ∧ held.getD none = password) ↔
      IsPassword values password := by
  simp only [Account.slot_none_eq_some_iff]
  constructor
  · rintro ⟨_, ⟨rfl, rfl⟩ | ⟨t, _, rfl, read, rfl⟩, rfl⟩
    · exact .absent
    · cases t with
      | null =>
        cases read
        exact .null
      | text s =>
        cases read
        exact .text s
      | _ => cases read
  · intro secret
    cases secret with
    | absent => exact ⟨none, .inl ⟨rfl, rfl⟩, rfl⟩
    | null => exact ⟨some none, .inr ⟨_, _, rfl, rfl, rfl⟩, rfl⟩
    | text s => exact ⟨some (some s), .inr ⟨_, _, rfl, rfl, rfl⟩, rfl⟩

theorem recorded?_eq_some_iff {members : List (String × Term)} {a : Account} :
    recorded? members = some a ↔ (record members).Describes a := by
  have parts : recorded? members = some a ↔ ∃ number key held,
      Account.slot number? none (named "accountType" members) = some (some number) ∧
        Account.slot text? none (named "apiKey" members) = some (some key) ∧
        Account.slot optionalText? none (named "apiPassword" members) = some held ∧
        a = ⟨number, key, held.getD none⟩ := by
    simp only [recorded?, Account.Draft.walk_next, Account.Draft.account?, bind, pure,
      Option.bind_eq_some_iff, Option.some.injEq]
    constructor
    · rintro ⟨_, ⟨type, taken, key, taken', held, taken'', rfl⟩, number, rfl, text, rfl, rfl⟩
      exact ⟨number, text, held, taken, taken', taken'', rfl⟩
    · rintro ⟨number, text, held, taken, taken', taken'', rfl⟩
      exact ⟨_, ⟨_, taken, _, taken', held, taken'', rfl⟩, number, rfl, text, rfl, rfl⟩
  rw [parts]
  constructor
  · rintro ⟨number, key, held, type, text, secret, rfl⟩
    obtain ⟨n, type, value⟩ := slot_number?_iff.1 type
    exact .mk type value (slot_text?_iff.1 text) (slot_optionalText?_iff.1 ⟨held, secret, rfl⟩)
  · rintro ⟨type, value, text, secret⟩
    obtain ⟨held, taken, rfl⟩ := slot_optionalText?_iff.2 secret
    exact ⟨_, _, held, slot_number?_iff.2 ⟨_, type, value⟩, slot_text?_iff.2 text, taken, rfl⟩

end Json.Term

namespace Account

theorem Draft.finish_cases (d : Draft) :
    (∃ a, d.account? = some a ∧ ∀ input, d.finish input = .ok a) ∨
      d.account? = none ∧ ∃ name, ∀ input,
        d.finish input = .error (.refusal (.missingField name) input) := by
  obtain ⟨_ | type, _ | key, password⟩ := d
  · exact .inr ⟨rfl, _, fun _ => rfl⟩
  · exact .inr ⟨rfl, _, fun _ => rfl⟩
  · exact .inr ⟨rfl, _, fun _ => rfl⟩
  · exact .inl ⟨_, rfl, fun _ => rfl⟩

theorem decides_readRecord {members : List (String × Term)} {bytes blanks : Bytes}
    (h : Spells (.members true members) bytes) (hb : Blanks blanks) :
    Decides (fun input => Field.enclosed Scan.recordEnd (readRecord input))
      (bytes ++ (blanks ++ [0x7d])) (Term.recorded? members) := by
  have text : ∀ after,
      bytes ++ (blanks ++ [0x7d]) ++ after = bytes ++ (blanks ++ 0x7d :: after) := by
    simp
  rcases Field.allMembers_spelled Draft.concludes_field h hb {} with
    ⟨d, walk, read⟩ | ⟨walk, fault, stops⟩
  · rw [Term.recorded?, walk]
    rcases d.finish_cases with ⟨a, whole, finish⟩ | ⟨missing, name, finish⟩
    · rw [Option.bind_some, whole]
      refine .taken fun after _ => ?_
      simp only [text, readRecord, read, ok_bind, finish]
      simp only [pure, Except.pure, Field.enclosed, Scan.recordEnd_cons]
      rfl
    · rw [Option.bind_some, missing]
      refine .refused_behind (.missingField name) fun after _ => ?_
      simp only [text, readRecord, read, ok_bind, finish]
      simp only [bind, Except.bind, Field.enclosed, Scan.recordEnd_cons]
  · rw [Term.recorded?, walk]
    refine .refused fault fun after _ => ?_
    obtain ⟨stop, stopped, placed⟩ := stops after
    rw [text, readRecord, stopped]
    exact (Field.enclosed_error _ stop).trans (congrArg Except.error placed)

def listType : String := "struct Account with 3 elements"

def endList (type : Json.Number) (key : String) (password : Option String) (input : Bytes) :
    Except Stop (Account × Bytes) :=
  .ok (⟨type, key, password⟩, input)

def readListPassword (type : Json.Number) (key : String) (input : Bytes) :
    Except Stop (Account × Bytes) :=
  Field.lastItem 2 none (Field.optional Field.text) input >>= fun x => endList type key x.1 x.2

def readListKey (type : Json.Number) (input : Bytes) : Except Stop (Account × Bytes) :=
  Field.item 1 listType Field.text input >>= fun x => readListPassword type x.1 x.2

theorem readList_eq (input : Bytes) :
    readList input = Field.item 0 listType Field.number input >>= fun x => readListKey x.1 x.2 :=
      rfl

theorem closes_password (type : Json.Number) (key : String) (items : List Term) :
    Field.Closes (readListPassword type key) false items (Term.listedPassword? type key items) := by
  have closes : ∀ p others, Field.Closes (endList type key p) false others _ := fun p others =>
    Field.closes_end (⟨type, key, p⟩ : Account) others
  cases items with
  | nil => exact Field.closes_lastItem_nil (endList type key) 2 (closes none [])
  | cons password others =>
    exact Field.closes_cons (endList type key) Field.decides_optionalText
      (Field.lastItem_opens none _) fun p => closes p others

theorem closes_key (type : Json.Number) (items : List Term) :
    Field.Closes (readListKey type) false items (Term.listedKey? type items) := by
  cases items with
  | nil => exact Field.closes_item_nil (readListPassword type) 1 listType
  | cons key others =>
    exact Field.closes_cons (readListPassword type) Field.decides_text
      (Field.item_opens listType _) fun s => closes_password type s others

theorem decides_readList {items : List Term} {bytes blanks : Bytes}
    (h : Spells (.items true items) bytes) (hb : Blanks blanks) :
    Decides (fun input => Field.enclosed Scan.listEnd (readList input))
      (bytes ++ (blanks ++ [0x5d])) (Term.listed? items) := by
  have closes : Field.Closes readList true items (Term.listed? items) := by
    rw [funext readList_eq]
    cases items with
    | nil => exact Field.closes_item_nil readListKey 0 listType
    | cons type others =>
      exact Field.closes_cons readListKey Field.decides_number (Field.item_opens listType _)
        fun n => closes_key n others
  exact closes bytes blanks h hb

theorem decides_read {t : Term} {bytes : Bytes} (h : Spells (.value t) bytes) :
    Decides read bytes t.account? := by
  obtain ⟨byte, rest, rfl, blank, -⟩ := h.start
  have start : ∀ after, read (byte :: rest ++ after) =
      if byte = 0x5b then Field.enclosed Scan.listEnd (readList (rest ++ after))
      else if byte = 0x7b then Field.enclosed Scan.recordEnd (readRecord (rest ++ after))
      else .error (Field.unexpected "struct Account" byte (rest ++ after)) :=
    fun after => Field.leading_cons _ blank
  rcases h.scalar_cases with ⟨rfl, items, rfl⟩ | ⟨rfl, members, rfl⟩ | ⟨list, record, -⟩
  · cases h with
    | list h hb => exact (decides_readList h hb).of_eq start
  · cases h with
    | record h hb => exact (decides_readRecord h hb).of_eq start
  · have none : t.account? = none := by
      cases t with
      | list items =>
        cases h
        exact absurd rfl list
      | record members =>
        cases h
        exact absurd rfl record
      | _ => rfl
    obtain ⟨fault, refused⟩ := Field.unexpected_spelled "struct Account" h
    rw [none]
    refine .refused fault fun after ends => ?_
    rw [start, if_neg list, if_neg record, refused after ends]
    rfl

end Account

namespace Document

def next (d : Document) (id : String) (t : Term) : Option Document := t.account?.map (d.insert id)

theorem concludes_field (d : Document) (id : String) (t : Term) (bytes : Bytes)
    (h : SpellsField t bytes) :
    Concludes Scan.recordEnd (d.field id) bytes (d.next id t) :=
  (Field.concludes_value (Field.leading_blanks _) Account.decides_read h).map (d.insert id)

theorem decides_read {members : List (String × Term)} {bytes : Bytes}
    (h : Spells (.value (.record members)) bytes) :
    Decides read bytes (Field.walk next empty members) := by
  cases h with
  | @record _ bytes blanks h hb =>
    have text : ∀ after, read (0x7b :: (bytes ++ (blanks ++ [0x7d])) ++ after) =
        Field.enclosed Scan.recordEnd
          (Field.allMembers field empty (bytes ++ (blanks ++ 0x7d :: after))) := by
      intro after
      rw [List.cons_append, read, Field.leading_cons _ (by decide)]
      simp
    rcases Field.allMembers_spelled concludes_field h hb empty with
      ⟨d, walk, taken⟩ | ⟨walk, fault, stops⟩
    · rw [walk]
      refine .taken fun after _ => ?_
      rw [text, taken]
      simp only [Field.enclosed, Scan.recordEnd_cons]
      rfl
    · rw [walk]
      refine .refused fault fun after _ => ?_
      obtain ⟨stop, stopped, placed⟩ := stops after
      rw [text, stopped, Field.enclosed_error, placed]
      rfl

theorem parse_spelled {members : List (String × Term)} {lead bytes trail : Bytes}
    (h : Spells (.value (.record members)) bytes) (hl : Blanks lead) (ht : Blanks trail) :
    (parse (lead ++ (bytes ++ trail))).toOption = Field.walk next empty members := by
  have ends : Scan.EndsNumber trail := by
    have alone := ht.endsNumber endsNumber_nil
    rwa [List.append_nil] at alone
  have skip : read (lead ++ (bytes ++ trail)) = read (bytes ++ trail) :=
    Field.leading_blanks _ hl _
  have blank : Scan.skipBlank trail = [] := by
    have alone := skipBlank_append ht []
    rwa [List.append_nil] at alone
  have decides := decides_read h
  generalize Field.walk next empty members = expected at decides ⊢
  cases decides with
  | taken settles =>
    rw [parse, readWhole, skip, settles trail ends]
    simp only [leaving, blank]
    rfl
  | refused fault settles =>
    rw [parse, readWhole, skip, settles trail ends]
    rfl

end Document

end AccountVault
