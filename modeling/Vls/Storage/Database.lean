import Vls.Base.Effect
import Vls.Base.Machine
import Vls.Storage.Hmac

/-!
# Versioned stores

A put writes a list of values in one transaction and is refused, with the conflicting keys, when a
version is not the next one.
-/

namespace ValidatingSigner.Storage

open Base

/-- Why a database operation fails. -/
inductive DbError where
  /-- An error of the underlying database. -/
  | database (message : String)
  /-- Version conflicts were detected: the keys, with the existing values. -/
  | conflict (conflicts : List (Text × Option Value))
  deriving DecidableEq

/-- A store with state `σ`. -/
structure Database (σ : Type) where
  /-- Atomically put a list of key-values of a client. -/
  put : List UInt8 → KeyValues Int64 → Effect σ DbError Unit
  /-- Get all keys of a client that begin with a text. -/
  getWithPrefix : List UInt8 → Text → σ → Except (Fault DbError) (KeyValues Int64)

/-- A call of a database. -/
inductive DbCall where
  | put (clientId : List UInt8) (kvs : KeyValues Int64)
  | getWithPrefix (clientId : List UInt8) (keyPrefix : Text)

/-- What a database returns to a call. -/
inductive DbReply where
  | put (result : Except (Fault DbError) Unit)
  | getWithPrefix (result : Except (Fault DbError) (KeyValues Int64))
  deriving DecidableEq

/-- A database as a machine that serves one call at a time. -/
def Database.machine {σ : Type} (D : Database σ) : Machine σ DbCall DbReply where
  step db
    | .put clientId kvs =>
      let (result, db') := (D.put clientId kvs).exec db
      (db', .put result)
    | .getWithPrefix clientId keyPrefix =>
      (db, .getWithPrefix (D.getWithPrefix clientId keyPrefix db))

/-- The values that a step has stored for a key of a client. -/
def written {σ : Type} (clientId : List UInt8) (key : Text) (x : Entry σ DbCall DbReply) :
    List Value :=
  match x.event, x.answer with
  | .put client kvs, .put (.ok ()) =>
    if client = clientId then (kvs.filter fun kv => kv.1 = key).map (·.2) else []
  | _, _ => []

/-- The values that a run has stored for a key of a client, oldest first. -/
def history {σ : Type} (clientId : List UInt8) (key : Text) (log : List (Entry σ DbCall DbReply)) :
    List Value :=
  log.flatMap (written clientId key)

@[simp] theorem history_concat {σ : Type} (clientId : List UInt8) (key : Text)
    (log : List (Entry σ DbCall DbReply)) (x : Entry σ DbCall DbReply) :
    history clientId key (log ++ [x]) = history clientId key log ++ written clientId key x := by
  simp [history]

end ValidatingSigner.Storage
