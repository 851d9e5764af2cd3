import Mathlib
import AccountVault.Http.Site
import AccountVault.Operation
import AccountVault.Proofs.Program.Contract

/-!
# What requests ask for

A request asks for at most one account operation. Handling it then runs that operation and tells the
caller its outcome; any other request is answered without a call to the store.
-/

namespace AccountVault.Http

open Program

def Request.input? (request : Request) : Option AccountInput :=
  match request.jsonBody with
  | .ok v => AccountInput.ofValue? v
  | .error _ => none

theorem Request.input?_eq_some_iff {request : Request} {input : AccountInput} :
    request.input? = some input ↔
      ∃ v, request.jsonBody = .ok v ∧ AccountInput.ofValue v = .ok input := by
  unfold input? AccountInput.ofValue
  constructor
  · intro h
    split at h
    · rename_i v body
      exact ⟨v, body, by rw [h]⟩
    · cases h
  · rintro ⟨v, body, read⟩
    rw [body]
    dsimp only
    split at read
    · rename_i found
      rw [found, Except.ok.inj read]
    · cases read

def Request.onAccount? (request : Request) (id : String) : Option Operation :=
  if request.method = "GET" || request.method = "HEAD" then some (.get id)
  else if request.method = "POST" then request.input?.map (.create id)
  else if request.method = "PUT" then request.input?.map (.update id)
  else if request.method = "DELETE" then some (.delete id)
  else none

def Site.operation? (site : Site) (request : Request) : Option Operation :=
  match site.router.find? (Target.path request.target) with
  | none => none
  | some found =>
    match found.route.endpoint with
    | .account =>
      match onlyParameter found.captures with
      | .ok id => request.onAccount? id
      | .error _ => none
    | .list => if request.method = "GET" || request.method = "HEAD" then some .list else none
    | _ => none

theorem Site.operation?_cases {site : Site} {request : Request} {operation : Operation}
    (h : site.operation? request = some operation) :
    operation = .list ∨ ∃ id, operation = .get id ∨ operation = .delete id ∨
      ∃ input, request.input? = some input ∧
        (operation = .create id input ∨ operation = .update id input) := by
  unfold operation? at h
  split at h
  · cases h
  · split at h
    · split at h
      · rename_i id _
        refine .inr ⟨id, ?_⟩
        unfold Request.onAccount? at h
        split_ifs at h
        · exact .inl (Option.some.inj h).symm
        · obtain ⟨input, found, rfl⟩ := Option.map_eq_some_iff.1 h
          exact .inr (.inr ⟨input, found, .inl rfl⟩)
        · obtain ⟨input, found, rfl⟩ := Option.map_eq_some_iff.1 h
          exact .inr (.inr ⟨input, found, .inr rfl⟩)
        · exact .inr (.inl (Option.some.inj h).symm)
      · cases h
    · split_ifs at h
      exact .inl (Option.some.inj h).symm
    · cases h

def conclude : Reply → Program Response
  | .account answer => accept answer
  | .failed failure => reject failure.kind failure.message
  | _ => return Response.invalidRequest

theorem silent_reject (kind : Failure.Kind) (message : String) : (reject kind message).Silent := by
  cases kind <;> exact .log _ (.done _)

theorem silent_conclude (reply : Reply) : (conclude reply).Silent := by
  cases reply with
  | account answer => exact .log _ (.done _)
  | failed failure => exact silent_reject _ _
  | _ => exact .done _

theorem silent_respond {α : Type} {attempt : Attempt α} {succeed : α → Program Response}
    (h : Silent attempt.run) (hs : ∀ a, (succeed a).Silent) : (respond attempt succeed).Silent := by
  refine Silent.bind h fun outcome => ?_
  cases outcome with
  | ok a => exact hs a
  | error failure => exact silent_reject _ _

theorem respond_eq (attempt : Attempt AccountAnswer) :
    respond attempt accept = (Reply.ofAttempt .account attempt).bind conclude := by
  unfold respond Reply.ofAttempt
  change Program.bind _ _ = Program.bind (Program.bind _ _) _
  rw [Program.bind_assoc]
  congr 1
  funext outcome
  cases outcome <;> rfl

theorem readInput_of_input? {request : Request} {input : AccountInput}
    (h : request.input? = some input) : readInput request = pure input := by
  unfold Request.input? at h
  unfold readInput
  cases hb : request.jsonBody with
  | error fault =>
    rw [hb] at h
    cases h
  | ok v =>
    rw [hb] at h
    have found : AccountInput.ofValue? v = some input := h
    change ExceptT.mk (pure (AccountInput.ofValue v)) = pure input
    rw [AccountInput.ofValue, found]
    rfl

theorem silent_readInput {request : Request} (h : request.input? = none)
    (f : AccountInput → Attempt AccountAnswer) :
    Silent (readInput request >>= f).run := by
  unfold Request.input? at h
  unfold readInput
  cases hb : request.jsonBody with
  | error fault => exact .log _ (.done _)
  | ok v =>
    rw [hb] at h
    have missing : AccountInput.ofValue? v = none := h
    change Silent (ExceptT.mk (pure (AccountInput.ofValue v)) >>= f).run
    rw [AccountInput.ofValue, missing]
    exact .done _

namespace Site

variable {site : Site} {request : Request}

theorem withParameter_ok {captures : List Capture} {id : String}
    (h : onlyParameter captures = .ok id) (next : String → Program Response) :
    withParameter captures next = next id := by
  rw [withParameter, h]

theorem handleAccount_of_onAccount? {captures : List Capture} {id : String} {operation : Operation}
    (hc : onlyParameter captures = .ok id) (h : request.onAccount? id = some operation) :
    site.handleAccount captures request = (operation.run site.service).bind conclude := by
  unfold Request.onAccount? at h
  unfold handleAccount
  split_ifs at h ⊢ with read post put delete
  · cases h
    rw [getAccount, withParameter_ok hc, respond_eq]
    rfl
  · obtain ⟨input, hi, rfl⟩ := Option.map_eq_some_iff.1 h
    rw [createAccount, withParameter_ok hc, readInput_of_input? hi, pure_bind, respond_eq]
    rfl
  · obtain ⟨input, hi, rfl⟩ := Option.map_eq_some_iff.1 h
    rw [updateAccount, withParameter_ok hc, readInput_of_input? hi, pure_bind, respond_eq]
    rfl
  · cases h
    rw [deleteAccount, withParameter_ok hc, respond_eq]
    rfl

theorem silent_handleAccount {captures : List Capture}
    (h : ∀ id, onlyParameter captures = .ok id → request.onAccount? id = none) :
    (site.handleAccount captures request).Silent := by
  rcases hc : onlyParameter captures with response | id
  · unfold handleAccount getAccount createAccount updateAccount deleteAccount withParameter
    rw [hc]
    split_ifs <;> exact .done _
  · have none := h id hc
    unfold Request.onAccount? at none
    unfold handleAccount
    split_ifs at none ⊢ with read post put delete
    · rw [createAccount, withParameter_ok hc]
      exact silent_respond (silent_readInput (Option.map_eq_none_iff.1 none) _)
        fun answer => .log _ (.done _)
    · rw [updateAccount, withParameter_ok hc]
      exact silent_respond (silent_readInput (Option.map_eq_none_iff.1 none) _)
        fun answer => .log _ (.done _)
    · exact .done _

theorem silent_loadedDocs : Silent site.loadedDocs.run := by
  unfold loadedDocs
  split <;> exact .done _

theorem silent_docsFile (captures : List Capture) : (site.docsFile captures).Silent := by
  unfold docsFile withParameter
  split
  · refine silent_respond ?_ fun _ => .done _
    refine Silent.bind silent_loadedDocs fun outcome => ?_
    cases outcome with
    | ok docs =>
      change Silent (ExceptT.run (if _ then _ else _))
      split_ifs <;> exact .done _
    | error failure => exact .done _
  · exact .done _

theorem silent_reading {run : Program Response} (h : run.Silent) :
    (reading request run).Silent := by
  unfold reading
  split_ifs
  · exact h
  · exact .done _

theorem handle_of_operation? {operation : Operation}
    (h : site.operation? request = some operation) :
    site.handle request = (operation.run site.service).bind conclude := by
  unfold operation? at h
  unfold handle
  split at h
  · cases h
  · rename_i found hf
    simp only [hf, handleFound]
    split at h
    · rename_i endpoint
      split at h
      · rename_i id hc
        simp only [endpoint]
        exact handleAccount_of_onAccount? hc h
      · cases h
    · rename_i endpoint
      split_ifs at h with read
      cases h
      simp only [endpoint, reading, read, listAccounts, respond_eq]
      rfl
    · cases h

theorem silent_handle (h : site.operation? request = none) : (site.handle request).Silent := by
  unfold operation? at h
  unfold handle
  split at h
  · rename_i hf
    simp only [hf]
    exact .done _
  · rename_i found hf
    simp only [hf, handleFound]
    split at h
    · rename_i endpoint
      simp only [endpoint]
      refine silent_handleAccount fun id hc => ?_
      simpa [hc] using h
    · rename_i endpoint
      split_ifs at h with read
      simp only [endpoint, reading, read]
      exact .done _
    · cases hp : found.route.endpoint with
      | account => simp_all
      | list => simp_all
      | health => exact silent_reading (.done _)
      | docsPage => exact silent_reading (silent_respond silent_loadedDocs fun _ => .done _)
      | docsFile => exact silent_reading (silent_docsFile _)

end Site

end AccountVault.Http
