import Vls.Storage.Server

/-!
# Acknowledged lists are stored

The server only refuses lists whose keys decrease, so a key may come twice.
-/

namespace ValidatingSigner.Storage

open Base SledDatabase

namespace StorageServer

variable {σ κ : Type} {S : StorageServer σ κ}

/-- Every get for a beginning of the key returns exactly the entry's value for it. -/
def Returns (S : StorageServer σ κ) (auth : Option Auth) (db : σ) (kv : Text × Value) : Prop :=
  ∀ keyPrefix nonce, keyPrefix <+: kv.1 → ∃ reply, S.get ⟨auth, keyPrefix, nonce⟩ db = .ok reply ∧
    ∀ value, (kv.1, value) ∈ reply.kvs ↔ value = kv.2

/-- A server over the embedded store returns an entry exactly when the tree holds it. -/
theorem returns_iff {S : StorageServer SledDatabase κ} {o : Overflow}
    (hS : S.database = SledDatabase.database o) {auth : Auth} {priv : PrivAuth κ}
    (hauth : S.checkAuth auth = .ok priv) {db : SledDatabase} {kv : Text × Value} :
    S.Returns (some auth) db kv ↔ db.lookup (sledKey auth.clientId kv.1) = some kv.2 := by
  have hget (keyPrefix : Text) := getWithPrefix_eq auth.clientId keyPrefix db
  constructor
  · intro h
    obtain ⟨reply, hreply, hmem⟩ := h kv.1 [] List.prefix_rfl
    obtain ⟨_, _, hsome, -, hkvs, -⟩ := get_eq_ok hreply
    cases hsome
    rw [hS] at hkvs
    exact ((mem_getWithPrefix hkvs).mp ((hmem kv.2).mpr rfl)).2
  · intro h keyPrefix nonce hstarts
    have hdatabase : S.database.getWithPrefix auth.clientId keyPrefix db =
        getWithPrefix auth.clientId keyPrefix db := by
      rw [hS]
      rfl
    have hserved : S.get ⟨some auth, keyPrefix, nonce⟩ db = .ok ⟨_, _⟩ :=
      get_of_getWithPrefix rfl hauth (hdatabase.trans (hget keyPrefix))
    refine ⟨_, hserved, ?_⟩
    intro value
    rw [mem_getWithPrefix (hget keyPrefix), h, Option.some.injEq]
    exact ⟨fun hvalue => hvalue.2.symm, fun hvalue => ⟨hstarts, hvalue.symm⟩⟩

/-- After a list is acknowledged, gets return every entry of it exactly when its entries of one key
agree; when its keys are distinct they all do. -/
theorem acknowledged_batch_stored {S : StorageServer SledDatabase κ} {o : Overflow}
    (hS : S.database = SledDatabase.database o) {request : PutRequest} {db db' : SledDatabase}
    {reply : PutReply} (hput : (S.put request).exec db = (.ok reply, db'))
    (hsuccess : reply.success = true) :
    ((∀ kv ∈ request.kvs, S.Returns request.auth db' kv) ↔
        ∀ a ∈ request.kvs, ∀ b ∈ request.kvs, a.1 = b.1 → a = b) ∧
      ((request.kvs.map Prod.fst).Nodup → ∀ kv ∈ request.kvs, S.Returns request.auth db' kv) := by
  obtain ⟨auth, priv, hcheck, ⟨-, hstored, -⟩ | ⟨hfailed, -⟩⟩ := put_eq_ok hput
  · obtain ⟨hauth, -, hpriv, -⟩ := checkPut_eq_ok hcheck
    rw [hS] at hstored
    obtain ⟨-, rfl⟩ := exec_put_eq_ok_iff.mp hstored
    have hreturns (kv : Text × Value) :
        S.Returns (some auth) (insertAll auth.clientId request.kvs db) kv ↔ _ :=
      returns_iff hS hpriv
    have hagree (h : ∀ a ∈ request.kvs, ∀ b ∈ request.kvs, a.1 = b.1 → a = b) :
        ∀ kv ∈ request.kvs, S.Returns request.auth
          (insertAll auth.clientId request.kvs db) kv := by
      intro kv hkv
      rw [hauth, hreturns]
      exact lookup_insertAll_of_mem hkv h
    refine ⟨⟨?_, hagree⟩, fun hkeys => hagree fun a ha b hb => ?_⟩
    · intro h a ha b hb hkey
      have hfirst := (hreturns a).mp (hauth ▸ h a ha)
      have hsecond := (hreturns b).mp (hauth ▸ h b hb)
      rw [hkey, hsecond] at hfirst
      exact Prod.ext hkey (Option.some.inj hfirst).symm
    · exact List.inj_on_of_nodup_map hkeys ha hb
  · rw [hfailed] at hsuccess
    cases hsuccess

end StorageServer

namespace Sample

/-- Two entries under different keys are acknowledged, and returned. -/
theorem acknowledged_batch_stored_sample :
    ∃ reply db, (server.put ⟨some auth, [(['a'], ⟨0, [1]⟩), (['b'], ⟨0, [2]⟩)],
        computeSharedHmac framed secret [0x01] [(['a'], ⟨0, [1]⟩), (['b'], ⟨0, [2]⟩)]⟩).exec ∅ =
        (.ok reply, db) ∧ reply.success = true ∧
      ∀ kv ∈ [(['a'], ⟨0, [1]⟩), (['b'], ⟨0, [2]⟩)], server.Returns (some auth) db kv := by
  have hput : (server.put ⟨some auth, [(['a'], ⟨0, [1]⟩), (['b'], ⟨0, [2]⟩)],
      computeSharedHmac framed secret [0x01] [(['a'], ⟨0, [1]⟩), (['b'], ⟨0, [2]⟩)]⟩).exec ∅ =
      (.ok _, insertAll [3] [(['a'], ⟨0, [1]⟩), (['b'], ⟨0, [2]⟩)] ∅) := rfl
  refine ⟨_, _, hput, rfl, ?_⟩
  exact (StorageServer.acknowledged_batch_stored rfl hput rfl).2 (by decide)

/-- Of two entries under one key that are acknowledged together, the first is lost. -/
theorem acknowledged_entry_lost :
    (server.machine.trace ∅ [putOf [(['a'], ⟨0, [1]⟩), (['a'], ⟨0, [2]⟩)],
        .get ⟨some auth, ['a'], [5]⟩]).map (·.answer) =
      [.ok (.put ⟨true, computeSharedHmac framed secret [0x02]
          [(['a'], ⟨0, [1]⟩), (['a'], ⟨0, [2]⟩)], []⟩),
        .ok (.get ⟨[(['a'], ⟨0, [2]⟩)],
          computeSharedHmac framed secret [5] [(['a'], ⟨0, [2]⟩)]⟩)] := by
  decide

end Sample

end ValidatingSigner.Storage
