import Logistics.TransactionProgram
import Logistics.KeyedTable

namespace Logistics.AuthModule

open KeyedTable TransactionProgram

structure Credential where
  username : String
  passwordHash : String
  clientType : String
  isActive : Bool
  deriving DecidableEq, Repr

abbrev Credentials := Table Credential.username

inductive Stmt
  | selectCredential (username : String)
  | updateActive (username : String) (active : Bool)

abbrev Stmt.Res : Stmt → Type
  | .selectCredential _ => Option Credential
  | .updateActive .. => Unit

def exec : (s : Stmt) → Credentials → Option (s.Res × Credentials)
  | .selectCredential username, c => some (c.find? username, c)
  | .updateActive username active, c => some ((), c.update username (fun r => { r with isActive := active }) fun _ => rfl)

abbrev Work (α : Type) := Prog Stmt Stmt.Res α

variable {α : Type} {c : Credentials} {username password v : String} {fault : Option Nat}

def perform (fault : Option Nat) (work : Work α) (c : Credentials) : α × Credentials :=
  work.run exec (fun base _ => base) c fault c

def queryCredentialsByUsername (username : String) : Work (Option Credential) :=
  .exec (.selectCredential username) none .rollback

def setClientActive (username : String) (active : Bool) : Work Int :=
  if username = "" then .rollback (-1)
  else .exec (.updateActive username active) (-1) fun _ => .commit 0 (-1)

inductive AuthResultCode
  | success
  | invalidCredentials
  | error
  deriving DecidableEq, Repr

def AuthResultCode.value : AuthResultCode → Int
  | .success => 200
  | .invalidCredentials => 401
  | .error => 500

structure AuthResult where
  statusCode : AuthResultCode
  clientType : String
  username : String
  deriving DecidableEq, Repr

/-- The query and the update run in transactions of their own, numbered 0 and 1.
Both catch what the database throws, so `ERROR` does not come out of here. -/
def authenticate (fault : Nat → Option Nat) (username password : String) (c : Credentials) : AuthResult × Credentials :=
  let queried := perform (fault 0) (queryCredentialsByUsername username) c
  match queried.1 with
  | none => (⟨.invalidCredentials, "", ""⟩, queried.2)
  | some cred =>
    if cred.passwordHash ≠ password then (⟨.invalidCredentials, "", ""⟩, queried.2)
    else (⟨.success, cred.clientType, cred.username⟩, (perform (fault 1) (setClientActive username true) queried.2).2)

def deactivateClient (fault : Option Nat) (username : String) (c : Credentials) : Credentials :=
  (perform fault (setClientActive username false) c).2

def Valid (c : Credentials) (username password : String) : Prop :=
  ∃ r, c.find? username = some r ∧ r.passwordHash = password

theorem perform_queryCredentialsByUsername (fault : Option Nat) (username : String) (c : Credentials) :
    perform fault (queryCredentialsByUsername username) c = (if fault = some 0 then none else c.find? username, c) := by
  match fault with
  | none | some 0 | some (_ + 1) => simp [perform, queryCredentialsByUsername, Prog.run, exec]

theorem setClientActive_cases (fault : Option Nat) (username : String) (active : Bool) (c : Credentials) :
    (perform fault (setClientActive username active) c).2 = c ∨
      username ≠ "" ∧ (perform fault (setClientActive username active) c).2 =
        c.update username (fun r => { r with isActive := active }) fun _ => rfl := by
  rw [setClientActive]
  split
  · exact .inl rfl
  · next hne =>
    match fault with
    | some 0 | some 1 => exact .inl rfl
    | none | some (_ + 2) => exact .inr ⟨hne, rfl⟩

theorem find?_setClientActive (active : Bool) (hv : v ≠ username) :
    (perform fault (setClientActive username active) c).2.find? v = c.find? v := by
  rcases setClientActive_cases fault username active c with h | ⟨-, h⟩
  · rw [h]
  · rw [h, Table.find?_update, if_neg hv]

theorem authenticate_eq (fault : Nat → Option Nat) (username password : String) (c : Credentials) :
    authenticate fault username password c = (⟨.invalidCredentials, "", ""⟩, c) ∨ ∃ r, c.find? username = some r ∧
    r.passwordHash = password ∧ authenticate fault username password c =
    (⟨.success, r.clientType, username⟩, (perform (fault 1) (setClientActive username true) c).2) := by
  simp only [authenticate, perform_queryCredentialsByUsername]
  cases hq : if fault 0 = some 0 then none else c.find? username with
  | none => exact .inl rfl
  | some cred =>
    have hfind : c.find? username = some cred := by
      split at hq
      · cases hq
      · exact hq
    by_cases hp : cred.passwordHash = password
    · have huser : cred.username = username := (Table.find?_eq_some.mp hfind).2
      exact .inr ⟨cred, hfind, hp, by simp [hp, huser]⟩
    · exact .inl (if_pos hp)

theorem authenticate_of_not_valid (fault : Nat → Option Nat) (h : ¬ Valid c username password) :
    authenticate fault username password c = (⟨.invalidCredentials, "", ""⟩, c) :=
  (authenticate_eq fault username password c).resolve_right fun ⟨r, hf, hp, _⟩ => h ⟨r, hf, hp⟩

theorem find?_authenticate_self {r : Credential} (hfind : c.find? username = some r) (hne : username ≠ "") :
    (authenticate (fun _ => none) username r.passwordHash c).2.find? username = some { r with isActive := true } := by
  have hset : (perform none (setClientActive username true) c).2 =
      c.update username (fun r => { r with isActive := true }) fun _ => rfl := by
    rw [setClientActive, if_neg hne]
    rfl
  simp only [authenticate, perform_queryCredentialsByUsername, reduceCtorEq, if_false, hfind, ne_eq,
    not_true_eq_false, hset]
  rw [Table.find?_update, if_pos rfl, hfind]
  rfl

end Logistics.AuthModule
