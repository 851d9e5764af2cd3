import Mathlib
import AccountVault.Operation
import AccountVault.Proofs.Account.Conduct
import AccountVault.Proofs.Account.Entries
import AccountVault.Proofs.Cipher.Blocks

/-!
# A machine on a map

What the five account operations mean, without a store, without texts and without failures of
either: a map from ids to accounts and an endless supply of initialisation vectors. An operation
looks at the map and answers; those that change it change one entry.
-/

namespace AccountVault

inductive AccountCall where
  | create (id : String) (input : AccountInput)
  | update (id : String) (input : AccountInput)
  | delete (id : String)
  | get (id : String)
  | list

namespace AccountCall

def operation : AccountCall → Operation
  | create id input => .create id input
  | update id input => .update id input
  | delete id => .delete id
  | get id => .get id
  | list => .list

def InRange (call : AccountCall) : Prop := call.operation.InRange

end AccountCall

abbrev AccountMap := Std.ExtTreeMap String Account

inductive Verdict where
  | refused (kind : Failure.Kind) (message : String)
  | answered (statusCode : Nat) (accounts : AccountMap) (message : String)

structure MapMachine where
  accounts : AccountMap
  /-- The vectors that have not been used yet. -/
  vectors : Nat → Bytes

namespace MapMachine

def sealedPassword (key : DataKey) (iv : Bytes) (password : String) : String :=
  Hex.encode iv ++ ":" ++ Hex.encode (Cipher.chained key iv (Utf8.encode password))

def entry (key : DataKey) (iv : Bytes) (input : AccountInput) : Account where
  accountType := input.accountType
  apiKey := input.apiKey
  apiPassword := some (sealedPassword key iv input.apiPassword)

def keep (machine : MapMachine) (id : String) (account : Account) : MapMachine where
  accounts := machine.accounts.insert id account
  vectors k := machine.vectors (k + 1)

def unknown (id : String) : Verdict := .refused .notFound ("No Data found for accountId : " ++ id)

def step (key : DataKey) (machine : MapMachine) : AccountCall → Verdict × MapMachine
  | .create id input =>
    if id ∈ machine.accounts then
      (.refused .notAllowed ("AccountId : " ++ id ++ " already exist."), machine)
    else
      let account := entry key (machine.vectors 0) input
      (.answered 201 {(id, account)} "Account Created", machine.keep id account)
  | .update id input =>
    if id ∈ machine.accounts then
      let account := entry key (machine.vectors 0) input
      (.answered 200 {(id, account)} ("Updated account " ++ id ++ " with new data."),
        machine.keep id account)
    else (unknown id, machine)
  | .delete id =>
    match machine.accounts[id]? with
    | some account =>
      (.answered 200 {(id, account.redacted)} "Account Deleted",
        { machine with accounts := machine.accounts.erase id })
    | none => (unknown id, machine)
  | .get id =>
    match machine.accounts[id]? with
    | some account => (.answered 200 {(id, account.redacted)} "Account Details", machine)
    | none => (unknown id, machine)
  | .list =>
    if machine.accounts.isEmpty then (.refused .notFound "No content in the file.", machine)
    else
      (.answered 200 (machine.accounts.map fun _ account => account.redacted) "Accounts List",
        machine)

def run (key : DataKey) : MapMachine → List AccountCall → List Verdict × MapMachine
  | machine, [] => ([], machine)
  | machine, call :: calls =>
    let (verdict, next) := machine.step key call
    let (verdicts, last) := run key next calls
    (verdict :: verdicts, last)

end MapMachine

namespace Document

def toMap (d : Document) : AccountMap :=
  d.entries.foldr (fun x accounts => accounts.insert x.1 x.2) ∅

theorem getElem?_toMap (d : Document) (id : String) : d.toMap[id]? = d.get? id := by
  unfold toMap get?
  induction d.entries with
  | nil => rfl
  | cons x entries ih =>
    rw [List.foldr_cons, Std.ExtTreeMap.getElem?_insert, ih]
    by_cases h : x.1 = id
    · simp [h]
    · simp [h]

theorem mem_toMap {d : Document} {id : String} : id ∈ d.toMap ↔ d.contains id = true := by
  rw [Std.ExtTreeMap.mem_iff_isSome_getElem?, getElem?_toMap, contains]

theorem toMap_insert (d : Document) (id : String) (a : Account) :
    (d.insert id a).toMap = d.toMap.insert id a := by
  refine Std.ExtTreeMap.ext_getElem? fun id' => ?_
  rw [getElem?_toMap, get?_insert, Std.ExtTreeMap.getElem?_insert, getElem?_toMap]
  by_cases h : id' = id
  · simp [h]
  · simp [h, Ne.symm h]

theorem toMap_erase (d : Document) (id : String) : (d.erase id).toMap = d.toMap.erase id := by
  refine Std.ExtTreeMap.ext_getElem? fun id' => ?_
  rw [getElem?_toMap, get?_erase, Std.ExtTreeMap.getElem?_erase, getElem?_toMap]
  by_cases h : id' = id
  · simp [h]
  · simp [h, Ne.symm h]

theorem toMap_redacted (d : Document) :
    d.redacted.toMap = d.toMap.map fun _ a => a.redacted := by
  refine Std.ExtTreeMap.ext_getElem? fun id' => ?_
  rw [getElem?_toMap, get?_redacted, Std.ExtTreeMap.getElem?_map, getElem?_toMap]

theorem isEmpty_toMap (d : Document) : d.toMap.isEmpty = d.isEmpty := by
  unfold toMap isEmpty
  cases d.entries with
  | nil => rfl
  | cons x entries => simp

end Document

end AccountVault
