import Mathlib.Logic.Function.Basic
import Manafont.DotNet.Runtime

/-!
# The database

`Manafont.Db/Model`, the tokens of OpenIddict and a `ManafontDbContext`, each as far
as `ManafontSessionManager` uses it.

The tables of users and of tokens have a key and the table of game sessions is a list
of rows.  A context keeps what it has yet to save in `Changes`.  A commit writes all
of it at once: a modified session over the row with its key, as whole rows are
written, and the added ones behind the others.

What EF Core and OpenIddict do is in `Backend` where it is not a look-up or a commit.
-/

namespace Manafont.Db

inductive GameSessionState where
  | valid
  | revoked
  deriving DecidableEq, Repr

/-- `ManafontGameSession`, with the key of its user. -/
structure ManafontGameSession where
  id : DotNetString
  user : DotNetString
  characterId : Option DotNetString
  status : GameSessionState
  deriving DecidableEq, Repr

/-- `ManafontUser` as an entity.  `GameSessions` is a reference that may be null. -/
structure ManafontUser where
  id : DotNetString
  gameSessions : Option (List ManafontGameSession)
  deriving DecidableEq, Repr

/-- `OpenIddictEntityFrameworkCoreToken`. -/
structure OpenIddictToken where
  id : DotNetString
  status : Option DotNetString
  subject : Option DotNetString
  deriving DecidableEq, Repr

namespace Statuses

def valid : DotNetString := [0x76, 0x61, 0x6C, 0x69, 0x64]

def revoked : DotNetString := [0x72, 0x65, 0x76, 0x6F, 0x6B, 0x65, 0x64]

end Statuses

/-- The tables: the tokens and the users by their keys, and the sessions. -/
structure Database where
  tokens : DotNetString → Option OpenIddictToken
  tokens_id : ∀ id token, tokens id = some token → token.id = id
  users : DotNetString → Bool
  sessions : List ManafontGameSession

structure Changes where
  modified : List ManafontGameSession
  added : List ManafontGameSession
  deriving DecidableEq, Repr

def Changes.empty : Changes := { modified := [], added := [] }

def Changes.rewrite (changes : Changes) (row : ManafontGameSession) : ManafontGameSession :=
  (changes.modified.find? fun session => session.id = row.id).getD row

namespace Database

def commit (changes : Changes) (db : Database) : Database :=
  { db with sessions := db.sessions.map changes.rewrite ++ changes.added }

def revoke (token : OpenIddictToken) (db : Database) : Database where
  tokens := Function.update db.tokens token.id
    (some { token with status := some Statuses.revoked })
  tokens_id := by
    intro id row h
    by_cases hid : id = token.id
    · subst hid
      rw [Function.update_self] at h
      cases h
      rfl
    · rw [Function.update_of_ne hid] at h
      exact db.tokens_id id row h
  users := db.users
  sessions := db.sessions

@[simp] theorem commit_tokens (changes : Changes) (db : Database) :
    (db.commit changes).tokens = db.tokens := rfl

@[simp] theorem commit_sessions (changes : Changes) (db : Database) :
    (db.commit changes).sessions = db.sessions.map changes.rewrite ++ changes.added := rfl

@[simp] theorem revoke_sessions (token : OpenIddictToken) (db : Database) :
    (db.revoke token).sessions = db.sessions := rfl

theorem revoke_tokens_self (token : OpenIddictToken) (db : Database) :
    (db.revoke token).tokens token.id = some { token with status := some Statuses.revoked } :=
  Function.update_self _ _ _

theorem revoke_tokens_of_ne {token : OpenIddictToken} {id : DotNetString} (h : id ≠ token.id)
    (db : Database) : (db.revoke token).tokens id = db.tokens id :=
  Function.update_of_ne h _ _

end Database

/-- The database of one user with valid tickets and without a session. -/
def Database.issued (user : DotNetString) (tickets : List DotNetString) : Database where
  tokens id :=
    if id ∈ tickets then some { id := id, status := some Statuses.valid, subject := some user }
    else none
  tokens_id := by
    intro id token h
    split at h
    · cases h
      rfl
    · cases h
  users key := key == user
  sessions := []

theorem Changes.rewrite_empty (row : ManafontGameSession) : Changes.empty.rewrite row = row := rfl

theorem Database.commit_empty (db : Database) : db.commit .empty = db := by
  rw [Database.commit, funext Changes.rewrite_empty]
  simp [Changes.empty]

theorem Changes.rewrite_id (changes : Changes) (row : ManafontGameSession) :
    (changes.rewrite row).id = row.id := by
  rw [Changes.rewrite]
  cases h : changes.modified.find? fun session => session.id = row.id with
  | none => rfl
  | some session => simpa using List.find?_some h

theorem Changes.rewrite_eq_or (changes : Changes) (row : ManafontGameSession) :
    changes.rewrite row = row ∧ (∀ session ∈ changes.modified, session.id ≠ row.id) ∨
      changes.rewrite row ∈ changes.modified := by
  rw [Changes.rewrite]
  cases h : changes.modified.find? fun session => session.id = row.id with
  | none =>
    refine Or.inl ⟨rfl, fun session hs => ?_⟩
    simpa using List.find?_eq_none.mp h session hs
  | some session => exact Or.inr (List.mem_of_find?_eq_some h)

/-- What EF Core and OpenIddict do beyond look-ups and commits: how a status is
compared, and what `FindAsync` puts into the `GameSessions` of a user. -/
structure Backend where
  hasStatus : OpenIddictToken → DotNetString → Bool
  hasStatus_revoked : ∀ token : OpenIddictToken,
    hasStatus { token with status := some Statuses.revoked } Statuses.valid = false
  gameSessions : Database → DotNetString → Option (List ManafontGameSession)

namespace Backend

/-- `GameSessions` holds the sessions of the user that are stored when it is loaded. -/
def LoadsSessions (backend : Backend) : Prop := ∀ db user, ∃ sessions,
  backend.gameSessions db user = some sessions ∧
    ∀ session, session ∈ sessions ↔ session ∈ db.sessions ∧ session.user = user

/-- `GameSessions` is as the class initialises it: a context that tracks no session of the
user, loads none lazily and includes none leaves it so. -/
def LeavesUnloaded (backend : Backend) : Prop := ∀ db user, backend.gameSessions db user = none

/-- What `GameSessions` holds, if anything, are sessions of the user that are stored when it is
loaded. -/
def LoadsStored (backend : Backend) : Prop := ∀ db user sessions,
  backend.gameSessions db user = some sessions →
    ∀ session ∈ sessions, session ∈ db.sessions ∧ session.user = user

theorem LoadsSessions.loadsStored {backend : Backend} (h : backend.LoadsSessions) :
    backend.LoadsStored := by
  intro db user sessions hsessions session hmem
  obtain ⟨loaded, hloaded, hiff⟩ := h db user
  rw [hsessions] at hloaded
  cases hloaded
  exact (hiff session).mp hmem

theorem LeavesUnloaded.loadsStored {backend : Backend} (h : backend.LeavesUnloaded) :
    backend.LoadsStored := by
  intro db user sessions hsessions
  rw [h db user] at hsessions
  cases hsessions

/-- A status compared as it is, and every stored session loaded. -/
def loading : Backend where
  hasStatus token status := token.status = some status
  hasStatus_revoked _ := by
    show decide (some Statuses.revoked = some Statuses.valid) = false
    decide
  gameSessions db user := some (db.sessions.filter fun session => session.user = user)

def unloading : Backend := { loading with gameSessions := fun _ _ => none }

theorem unloading_leavesUnloaded : unloading.LeavesUnloaded := fun _ _ => rfl

theorem loading_loadsSessions : loading.LoadsSessions := by
  intro db user
  refine ⟨_, rfl, fun session => ?_⟩
  rw [List.mem_filter, decide_eq_true_eq]

end Backend

end Manafont.Db
