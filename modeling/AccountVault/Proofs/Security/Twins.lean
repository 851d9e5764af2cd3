import Mathlib
import AccountVault.Proofs.Cipher.Blocks
import AccountVault.Proofs.Security.Alongside
import AccountVault.Proofs.Session.Bystanders

/-!
# Services that share everything but secrets

Two accounts are twins when they differ in what their passwords are, and in nothing else: not in
whether there is one. Two services under keys of their own, asked for the same operations but for
the passwords that are sent, work alongside each other over documents of twins. What relates the
stored bodies is left open: it has to make both services read twins or fail alike, and it has to
hold of written twins.
-/

namespace AccountVault

open Program

def Account.outline (a : Account) : Json.Number × String × Bool :=
  (a.accountType, a.apiKey, a.apiPassword.isSome)

theorem Account.outline_reread {a b : Account} (h : a.outline = b.outline) :
    a.reread.outline = b.reread.outline := by
  simp_all [outline, reread]

theorem Account.redacted_eq_of_outline {a b : Account} (h : a.outline = b.outline) :
    a.redacted = b.redacted := by
  simp_all [outline, redacted]

structure Account.Twin (a b : Account) : Prop where
  outline : a.outline = b.outline
  readable : a.accountType.Readable

namespace Document

/-- The same ids, and under each id accounts of the same outline. -/
def SameOutline (d e : Document) : Prop :=
  ∀ id, (d.get? id).map Account.outline = (e.get? id).map Account.outline

theorem SameOutline.redacted {d e : Document} (h : d.SameOutline e) : d.redacted = e.redacted :=
  redacted_eq h fun _ _ => Account.redacted_eq_of_outline

theorem SameOutline.withAccounts_reread {d e : Document} (h : d.SameOutline e) :
    (d.withAccounts Account.reread).SameOutline (e.withAccounts Account.reread) := by
  intro id
  rw [get?_withAccounts, get?_withAccounts]
  rcases get?_cases h id with ⟨hd, he⟩ | ⟨a, b, hd, he, outline⟩
  · rw [hd, he]
  · rw [hd, he]
    exact congrArg some (Account.outline_reread outline)

structure Twin (d e : Document) : Prop where
  outline : d.SameOutline e
  readable : d.Readable

namespace Twin

variable {d e : Document}

theorem readable' (h : d.Twin e) : e.Readable := by
  rw [Document.Readable, typed_iff]
  intro id b found
  rcases get?_cases h.outline id with ⟨-, he⟩ | ⟨a, b', hd, he, outline⟩
  · rw [he] at found
    cases found
  · obtain rfl : b' = b := Option.some.inj (he.symm.trans found)
    have type : a.accountType = b'.accountType := congrArg Prod.fst outline
    rw [← type]
    exact typed_iff.1 h.readable id a hd

theorem insert (h : d.Twin e) (id : String) {a b : Account} (twin : a.Twin b) :
    (d.insert id a).Twin (e.insert id b) :=
  ⟨map_get?_insert h.outline id twin.outline, Typed.insert h.readable id twin.readable⟩

theorem erase (h : d.Twin e) (id : String) : (d.erase id).Twin (e.erase id) :=
  ⟨map_get?_erase h.outline id, Typed.erase h.readable id⟩

theorem refl (readable : d.Readable) : d.Twin d := ⟨fun _ => rfl, readable⟩

end Twin

end Document

namespace DocumentStore

/-- Both bodies are twins, or both are refused for the same reason. -/
def ReadAlike (body body' : Bytes) : Prop :=
  Concur Document.Twin (reading body) (reading body')

theorem ReadAlike.of_parse {body body' : Bytes} {d e : Document} (hd : Document.parse body = .ok d)
    (he : Document.parse body' = .ok e) (outline : d.SameOutline e) : ReadAlike body body' := by
  rw [ReadAlike, reading_of_parse hd, reading_of_parse he]
  exact .ok ⟨outline, Document.readable_of_parse hd⟩

theorem ReadAlike.refl (body : Bytes) : ReadAlike body body := by
  unfold ReadAlike
  cases read : reading body with
  | error failure => exact .error failure
  | ok d => exact .ok (.refl (Document.readable_of_parse (parse_of_reading read)))

theorem ReadAlike.write {d e : Document} (h : d.Twin e) : ReadAlike d.write e.write :=
  .of_parse (Document.parse_write_reread h.readable) (Document.parse_write_reread h.readable')
    h.outline.withAccounts_reread

end DocumentStore

theorem Kindred.twins {bodies : Bytes → Bytes → Prop}
    (read : ∀ {body body'}, bodies body body' → DocumentStore.ReadAlike body body')
    (write : ∀ {d e : Document}, d.Twin e → bodies d.write e.write) :
    Kindred Document.Twin Account.Twin bodies where
  read := read
  write := write
  redacted twin := twin.outline.redacted
  insert id _ _ twin written := twin.insert id written
  erase id twin := twin.erase id

theorem kindred_readAlike : Kindred Document.Twin Account.Twin DocumentStore.ReadAlike :=
  .twins id DocumentStore.ReadAlike.write

def AccountInput.Twin (input input' : AccountInput) : Prop :=
  input.accountType = input'.accountType ∧ input.apiKey = input'.apiKey

theorem AccountInput.Twin.shown {input input' : AccountInput} (h : input.Twin input') :
    input.shown = input'.shown := by
  obtain ⟨type, key⟩ := h
  unfold AccountInput.shown
  rw [type, key]

def AccountAnswer.redacted (r : AccountAnswer) : AccountAnswer :=
  { r with account := r.account.map Document.redacted }

inductive Operation.Twin : Operation → Operation → Prop
  | create (id : String) {input input' : AccountInput} (h : input.Twin input') :
    Twin (.create id input) (.create id input')
  | update (id : String) {input input' : AccountInput} (h : input.Twin input') :
    Twin (.update id input) (.update id input')
  | get (id : String) : Twin (.get id) (.get id)
  | delete (id : String) : Twin (.delete id) (.delete id)
  | list : Twin .list .list

inductive Reply.Twin : Reply → Reply → Prop
  | failed (failure : Failure) : Twin (.failed failure) (.failed failure)
  | account {answer answer' : AccountAnswer} (h : answer.redacted = answer'.redacted) :
    Twin (.account answer) (.account answer')

theorem Sealed.encrypt_of_length_ne {iv : Bytes} (h : iv.length ≠ Cipher.ivLength) (key : DataKey)
    (plaintext : Bytes) : Sealed.encrypt key iv plaintext = .error (.ivLength iv.length) := by
  unfold Sealed.encrypt
  split
  · rw [if_neg h]
  · rfl

namespace Service

variable {location : Location} {key key' : Option DataKey} {bodies : Bytes → Bytes → Prop}

theorem matches_sealInput_twins {input input' : AccountInput} (keys : key.isSome = key'.isSome)
    (h : input.Twin input') (readable : input.accountType.Readable) :
    Matches location bodies (Concur Account.Twin) ((Service.mk location key).sealInput input).run
      ((Service.mk location key').sealInput input').run := by
  unfold sealInput encrypt
  match key, key', keys with
  | none, none, _ => exact .done (.error _)
  | some key, some key', _ =>
    apply Matches.draw
    intro answer
    cases answer with
    | error e => exact .done (.error _)
    | ok iv =>
      simp only
      -- Whether sealing succeeds depends on the vector alone.
      by_cases whole : iv.length = Cipher.ivLength
      · rw [Cipher.encrypt_eq_chained whole, Cipher.encrypt_eq_chained whole]
        refine .done (.ok ⟨?_, readable⟩)
        simp only [Account.outline, h.1, h.2, Option.isSome_some]
      · rw [Sealed.encrypt_of_length_ne whole, Sealed.encrypt_of_length_ne whole]
        exact .done (.error _)

theorem redacted_answer_single {a b : Account} (twin : a.Twin b) (statusCode : Nat)
    (id message : String) :
    (answer statusCode (.single id a) message).redacted =
      (answer statusCode (.single id b) message).redacted := by
  have same : (Document.single id a).redacted = (Document.single id b).redacted := by
    simp [Document.redacted, Document.single, Account.redacted_eq_of_outline twin.outline]
  simp only [answer, AccountAnswer.redacted, Option.map_some, same]

end Service

end AccountVault
