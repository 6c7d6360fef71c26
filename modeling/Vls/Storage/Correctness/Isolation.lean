import Vls.Storage.Server

/-!
# Clients do not see each other

All clients of a server share one tree.  Still a client is answered as if it were alone: requests
that name other clients, or none, change no answer that it gets.
-/

namespace ValidatingSigner.Storage

open Base SledDatabase List

/-- Two trees hold the same values for a client. -/
def SameFor (client : List UInt8) (db db' : SledDatabase) : Prop :=
  ∀ key, db.lookup (sledKey client key) = db'.lookup (sledKey client key)

namespace SameFor

variable {o : Overflow} {client other : List UInt8} {db db' : SledDatabase}
  {kvs : KeyValues Int64}

theorem insertAll (h : SameFor client db db') (kvs : KeyValues Int64) :
    SameFor client (insertAll client kvs db) (insertAll client kvs db') := by
  induction kvs generalizing db db' with
  | nil => exact h
  | cons kv kvs ih =>
    refine ih fun key => ?_
    rw [Table.lookup_insert_eq, Table.lookup_insert_eq, h key]

theorem conflicts_eq (h : SameFor client db db') (kvs : KeyValues Int64) :
    conflicts o db client kvs = conflicts o db' client kvs := by
  induction kvs with
  | nil => rfl
  | cons kv kvs ih => rw [conflicts, conflicts, h, ih]

theorem put (h : SameFor client db db') (o : Overflow) (kvs : KeyValues Int64) :
    ((put o client kvs).exec db).1 = ((put o client kvs).exec db').1 ∧
      SameFor client ((put o client kvs).exec db).2 ((put o client kvs).exec db').2 := by
  rw [exec_put, exec_put, h.conflicts_eq]
  rcases conflicts o db' client kvs with e | (_ | ⟨c, found⟩)
  · exact ⟨rfl, h⟩
  · exact ⟨rfl, h.insertAll kvs⟩
  · exact ⟨rfl, h⟩

/-- A put of another client changes nothing for this one. -/
theorem put_other (h : SameFor client db db') (hother : other ≠ client) (o : Overflow)
    (kvs : KeyValues Int64) : SameFor client ((SledDatabase.put o other kvs).exec db).2 db' := by
  rw [exec_put]
  rcases conflicts o db other kvs with e | (_ | ⟨c, found⟩)
  · exact h
  · intro key
    rw [← h key]
    exact lookup_insertAll_of_ne fun kv _ heq => hother (sledKey_inj.mp heq).1.symm
  · exact h

/-- A get of the client returns the same list from both. -/
theorem getWithPrefix (h : SameFor client db db') (start : Text) :
    getWithPrefix client start db = getWithPrefix client start db' := by
  have hget := getWithPrefix_eq client start db
  have hget' := getWithPrefix_eq client start db'
  have hkeys := nodup_keys_getWithPrefix hget
  have hperm := (perm_ext_iff_of_nodup hkeys.of_map (nodup_keys_getWithPrefix hget').of_map).mpr
    fun kv => by rw [mem_getWithPrefix hget, mem_getWithPrefix hget', h]
  rw [hget, hget', hperm.eq_of_pairwise ?_ (pairwise_getWithPrefix hget)
    (pairwise_getWithPrefix hget')]
  intro a b ha hb hab hba
  exact inj_on_of_nodup_map hkeys ha (hperm.mem_iff.mpr hb) (Text.le_antisymm hab hba)

end SameFor

namespace StorageServer

variable {κ : Type} {S : StorageServer SledDatabase κ} {o : Overflow} {client : List UInt8}
  {db db' : SledDatabase}

/-- The client a request names. -/
def Request.clientId : Request → Option (List UInt8)
  | .get request => request.auth.map (·.clientId)
  | .put request => request.auth.map (·.clientId)

/-- A put writes nothing, or what the database does for the client it names. -/
theorem exec_put_snd (S : StorageServer SledDatabase κ) (request : PutRequest)
    (db : SledDatabase) : ((S.put request).exec db).2 = db ∨ ∃ auth, request.auth = some auth ∧
      ((S.put request).exec db).2 = ((S.database.put auth.clientId request.kvs).exec db).2 := by
  cases hcheck : S.checkPut request with
  | error e =>
    left
    rw [StorageServer.put, Effect.exec_bind, Effect.exec_lift, hcheck]
  | ok checked =>
    rw [exec_put_of_checkPut hcheck]
    exact .inr ⟨checked.1, (checkPut_eq_ok hcheck).1, rfl⟩

/-- A request of the client is answered alike from trees that are the same for it. -/
theorem step_client (hS : S.database = SledDatabase.database o) (h : SameFor client db db')
    {request : Request} (hclient : request.clientId = some client) :
    (S.machine.step db request).2 = (S.machine.step db' request).2 ∧
      SameFor client (S.machine.step db request).1 (S.machine.step db' request).1 := by
  cases request with
  | get request =>
    obtain ⟨auth, hauth, rfl⟩ := Option.map_eq_some_iff.mp hclient
    refine ⟨congrArg (Except.map Reply.get) ?_, h⟩
    have hget := h.getWithPrefix request.keyPrefix
    simp only [StorageServer.get, hauth, requireAuth, ok_bind, hS, SledDatabase.database, hget]
  | put request =>
    obtain ⟨auth, hauth, rfl⟩ := Option.map_eq_some_iff.mp hclient
    cases hcheck : S.checkPut request with
    | error e =>
      simp only [machine, StorageServer.put, Effect.exec_bind, Effect.exec_lift, hcheck]
      exact ⟨trivial, h⟩
    | ok checked =>
      obtain rfl : checked.1 = auth :=
        Option.some.inj ((checkPut_eq_ok hcheck).1.symm.trans hauth)
      obtain ⟨hanswer, hsame⟩ := h.put o request.kvs
      simp only [machine, exec_put_of_checkPut hcheck, hS, SledDatabase.database, hanswer]
      exact ⟨trivial, hsame⟩

/-- In every run of a server over the embedded store a client is answered as in the run of its own
requests alone. -/
theorem clients_isolated (hS : S.database = SledDatabase.database o) (client : List UInt8)
    (db : SledDatabase) (requests : List Request) :
    ((S.machine.trace db requests).filter fun x => x.event.clientId = some client).map (·.answer) =
      (S.machine.trace db (requests.filter fun r => r.clientId = some client)).map (·.answer) := by
  refine S.machine.answers_filter (p := fun r => decide (r.clientId = some client))
    (R := SameFor client) (fun s t request h hclient => ?_) (fun s t request h hother => ?_)
    (fun _ => rfl) requests
  · exact step_client hS h (of_decide_eq_true hclient)
  · cases request with
    | get request => exact h
    | put request =>
      rcases S.exec_put_snd request s with hsame | ⟨auth, hauth, hput⟩
      · exact fun key => (congrArg (AList.lookup _) hsame).trans (h key)
      · have hne : auth.clientId ≠ client := fun heq =>
          of_decide_eq_false hother (by rw [Request.clientId, hauth, ← heq]; rfl)
        change SameFor client ((S.put request).exec s).2 t
        rw [hput, hS]
        exact h.put_other hne o request.kvs

/-- Client 3 reads what it has stored, before and after a request of client 4. -/
theorem clients_isolated_two :
    ((Sample.server.machine.trace ∅ [Sample.putOf [(['a'], ⟨0, [5]⟩)],
      .get ⟨some ⟨[4], [2]⟩, [], []⟩, .get ⟨some Sample.auth, ['a'], [9]⟩]).filter
        fun x => x.event.clientId = some [3]).map (·.answer) =
      (Sample.server.machine.trace ∅ [Sample.putOf [(['a'], ⟨0, [5]⟩)],
        .get ⟨some Sample.auth, ['a'], [9]⟩]).map (·.answer) :=
  clients_isolated rfl [3] ∅ _

end StorageServer

end ValidatingSigner.Storage
