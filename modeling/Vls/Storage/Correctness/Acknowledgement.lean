import Vls.Storage.Server

/-!
# Replies that acknowledge a put

The acknowledgement of a put, the client's authentication of a put and the reply to a get are HMACs
under one key, told apart only by the nonce in front of the entries.  A get whose nonce begins with
neither of the two bytes reserved for a put never yields one of the other two HMACs, so that an
acknowledgement comes from a put the database has accepted.
-/

namespace ValidatingSigner.Storage

open Base

namespace StorageServer

variable {σ κ : Type} {S : StorageServer σ κ} {hmac : List UInt8 → List UInt8 → List UInt8}

/-- The nonce begins with a byte that no HMAC of a put begins with. -/
def SeparateNonce (nonce : List UInt8) : Prop :=
  ∃ byte rest, nonce = byte :: rest ∧ byte ≠ 0x01 ∧ byte ≠ 0x02

/-- A step of the server has stored a list for the client with a secret. -/
def Stored (S : StorageServer σ κ) (secret : List UInt8) (kvs : KeyValues Int64)
    (x : Entry σ Request (Except (Fault Status) Reply)) : Prop :=
  ∃ request auth priv, x.event = .put request ∧ request.kvs = kvs ∧
    S.checkPut request = .ok (auth, priv) ∧ priv.sharedSecret = secret ∧
    (S.database.put auth.clientId kvs).exec x.before = (.ok (), x.after)

/-- Under an HMAC function that tells its inputs apart, equal HMACs are over one secret and over the
same nonce and entries. -/
theorem shared_hmac_inj (hinj : ∀ s s' m m', hmac s m = hmac s' m' → s = s' ∧ m = m')
    {s s' n n' : List UInt8} {kvs kvs' : KeyValues Int64}
    (h : computeSharedHmac hmac s n kvs = computeSharedHmac hmac s' n' kvs') :
    s = s' ∧ n ++ entryBytes i64Bytes kvs = n' ++ entryBytes i64Bytes kvs' := by
  obtain ⟨rfl, hinput⟩ := hinj _ _ _ _ h
  refine ⟨rfl, ?_⟩
  rw [sharedInput, sharedInput, List.append_assoc, List.append_assoc] at hinput
  exact List.append_cancel_left hinput

/-- The HMAC of a get with a separate nonce is neither HMAC of a put. -/
theorem SeparateNonce.hmac_ne (hinj : ∀ s s' m m', hmac s m = hmac s' m' → s = s' ∧ m = m')
    {nonce : List UInt8} (hnonce : SeparateNonce nonce) {byte : UInt8}
    (hbyte : byte = 0x01 ∨ byte = 0x02) (s s' : List UInt8) (kvs kvs' : KeyValues Int64) :
    computeSharedHmac hmac s nonce kvs ≠ computeSharedHmac hmac s' [byte] kvs' := by
  intro h
  obtain ⟨first, rest, rfl, hone, htwo⟩ := hnonce
  have hbytes := (shared_hmac_inj hinj h).2
  have hfirst : first = byte := (List.cons.inj hbytes).1
  rcases hbyte with rfl | rfl
  · exact hone hfirst
  · exact htwo hfirst

/-- In every run whose gets use separate nonces, a reply that acknowledges a list which no put of
the run is confused with comes from a put that stored the list, and no reply authenticates a put. -/
theorem acknowledgement_not_forged
    (hinj : ∀ s s' m m', S.hmac s m = S.hmac s' m' → s = s' ∧ m = m')
    (hne : ∀ s m, S.hmac s m ≠ []) {start : σ} {events : List Request}
    (hnonce : ∀ request, Request.get request ∈ events → SeparateNonce request.nonce)
    {secret : List UInt8} {kvs : KeyValues Int64}
    (hlist : ∀ request, Request.put request ∈ events →
      entryBytes i64Bytes request.kvs = entryBytes i64Bytes kvs → request.kvs = kvs)
    {x : Entry σ Request (Except (Fault Status) Reply)} (hx : x ∈ S.machine.trace start events)
    {reply : Reply} (hreply : x.answer = .ok reply) :
    (reply.hmac = computeSharedHmac S.hmac secret [0x02] kvs → S.Stored secret kvs x) ∧
      reply.hmac ≠ computeSharedHmac S.hmac secret [0x01] kvs := by
  have hevent := S.machine.event_mem_of_mem_trace hx
  obtain ⟨first, event, second, rfl, rfl⟩ := S.machine.exists_of_mem_trace hx
  cases event with
  | get request =>
    have hseparate := hnonce request hevent
    obtain ⟨r, rfl, hget⟩ := step_get_ok hreply
    obtain ⟨auth, priv, -, -, -, hhmac⟩ := get_eq_ok hget
    constructor
    · intro h
      exact absurd (hhmac.symm.trans h) (hseparate.hmac_ne hinj (.inr rfl) _ _ _ _)
    · intro h
      exact hseparate.hmac_ne hinj (.inl rfl) _ _ _ _ (hhmac.symm.trans h)
  | put request =>
    obtain ⟨r, rfl, hput⟩ := step_put_ok hreply
    obtain ⟨auth, priv, hcheck, ⟨-, hstored, hhmac⟩ | ⟨-, hhmac⟩⟩ := put_eq_ok hput
    · constructor
      · intro h
        obtain ⟨hsecret, hbytes⟩ := shared_hmac_inj hinj (hhmac.symm.trans h)
        have hkvs : request.kvs = kvs := hlist request hevent (List.cons.inj hbytes).2
        exact ⟨request, auth, priv, rfl, hkvs, hcheck, hsecret, hkvs ▸ hstored⟩
      · intro h
        have hbytes := (shared_hmac_inj hinj (hhmac.symm.trans h)).2
        cases (List.cons.inj hbytes).1
    · constructor
      · intro h
        exact absurd (h.symm.trans hhmac) (hne _ _)
      · intro h
        exact hne _ _ (h.symm.trans hhmac)

end StorageServer

namespace Sample

open StorageServer

/-- A get of this client for all its keys. -/
def getOf (nonce : List UInt8) : StorageServer.Request := .get ⟨some auth, [], nonce⟩

/-- The value 5 under the key `a`. -/
def entry : KeyValues Int64 := [(['a'], ⟨0, [5]⟩)]

/-- The put of the value 5 after a get with a separate nonce is acknowledged because it is stored.
-/
theorem acknowledgement_not_forged_sample :
    ∃ x ∈ server.machine.trace ∅ [getOf [0, 1], putOf entry],
      x.answer = .ok (.put ⟨true, computeSharedHmac framed secret [0x02] entry, []⟩) ∧
        server.Stored secret entry x := by
  have hx : _ ∈ server.machine.trace ∅ [getOf [0, 1], putOf entry] :=
    List.mem_cons_of_mem _ List.mem_cons_self
  refine ⟨_, hx, rfl, ?_⟩
  refine (acknowledgement_not_forged (fun _ _ _ _ => framed_inj) framed_ne_nil ?_ ?_ hx rfl).1 rfl
  · intro request hrequest
    obtain rfl : request = ⟨some auth, [], [0, 1]⟩ := by simpa [getOf, putOf] using hrequest
    exact ⟨0, [1], rfl, by decide, by decide⟩
  · intro request hrequest _
    obtain rfl : request = ⟨some auth, entry, computeSharedHmac framed secret [0x01] entry⟩ := by
      simpa [getOf, putOf] using hrequest
    rfl

/-- Without storing anything, a get yields the acknowledgement of a put; another yields the client's
HMAC of a put, with which the put is then accepted. -/
theorem acknowledgement_forged :
    (server.machine.trace ∅ [getOf (0x02 :: entryBytes i64Bytes entry),
        getOf (0x01 :: entryBytes i64Bytes entry),
        .put ⟨some auth, entry, computeSharedHmac framed secret [0x01] entry⟩]).map (·.answer) =
      [.ok (.get ⟨[], computeSharedHmac framed secret [0x02] entry⟩),
        .ok (.get ⟨[], computeSharedHmac framed secret [0x01] entry⟩),
        .ok (.put ⟨true, computeSharedHmac framed secret [0x02] entry, []⟩)] := by
  decide

end Sample

end ValidatingSigner.Storage
