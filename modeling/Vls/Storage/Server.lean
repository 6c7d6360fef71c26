import Vls.Storage.Sled

/-!
# The storage server

The server keeps the values of its clients in a database.  A request names the client by its public
key and proves it with a token derived from the secret the two share; a put carries in addition the
client's HMAC over the entries, and the replies carry the server's.
-/

namespace ValidatingSigner.Storage

open Base

/-- The status codes the server answers with. -/
inductive StatusCode where
  | invalidArgument
  | unauthenticated
  | internal
  deriving DecidableEq

/-- A refused request. -/
structure Status where
  code : StatusCode
  message : String
  deriving DecidableEq

/-- The identity a request claims. -/
structure Auth where
  clientId : List UInt8
  token : List UInt8

/-- A request for the keys that begin with a text. -/
structure GetRequest where
  auth : Option Auth
  keyPrefix : Text
  nonce : List UInt8

/-- A request to store a list. -/
structure PutRequest where
  auth : Option Auth
  kvs : KeyValues Int64
  hmac : List UInt8

structure GetReply where
  kvs : KeyValues Int64
  hmac : List UInt8
  deriving DecidableEq

structure PutReply where
  success : Bool
  hmac : List UInt8
  conflicts : KeyValues Int64
  deriving DecidableEq

/-- The privileged side of an authentication: the client's key and the shared secret. -/
structure PrivAuth (κ : Type) where
  clientId : κ
  sharedSecret : List UInt8

/-- A server over a database with state `σ`, for public keys of type `κ`, with the functions of the
cryptographic libraries it calls. -/
structure StorageServer (σ κ : Type) where
  database : Database σ
  /-- The public key that a client identifier serializes. -/
  fromSlice : List UInt8 → Option κ
  /-- The secret that the server's key shares with a public key. -/
  ecdh : κ → List UInt8
  sha256 : List UInt8 → List UInt8
  hmac : List UInt8 → List UInt8 → List UInt8

namespace StorageServer

variable {σ κ : Type} (S : StorageServer σ κ)

/-- The token that proves the knowledge of the shared secret. -/
def authToken (auth : PrivAuth κ) : List UInt8 := S.sha256 auth.sharedSecret

/-- The authentication of a claimed identity. -/
def checkAuth (auth : Auth) : Except (Fault Status) (PrivAuth κ) :=
  match S.fromSlice auth.clientId with
  | none => .error (.refuse ⟨.unauthenticated, "invalid client id"⟩)
  | some clientId => do
    let priv : PrivAuth κ := ⟨clientId, S.ecdh clientId⟩
    refuseIf (auth.token ≠ S.authToken priv) ⟨.invalidArgument, "invalid auth token"⟩
    return priv

/-- The identity of a request. -/
def requireAuth : Option Auth → Except (Fault Status) Auth
  | some auth => .ok auth
  | none => .error (.refuse ⟨.invalidArgument, "missing auth"⟩)

/-- The status of a failed read; a read has no conflicts. -/
def intoStatus : Fault DbError → Fault Status
  | .refuse (.conflict _) => .abort "not implemented: unexpected conflict error"
  | .refuse (.database _) => .refuse ⟨.internal, "unexpected error"⟩
  | .abort message => .abort message

/-- Serve the client's keys that begin with a text, authenticated with the client's nonce. -/
def get (request : GetRequest) (db : σ) : Except (Fault Status) GetReply := do
  let auth ← requireAuth request.auth
  let priv ← S.checkAuth auth
  let kvs ← (S.database.getWithPrefix auth.clientId request.keyPrefix db).mapError intoStatus
  return ⟨kvs, computeSharedHmac S.hmac priv.sharedSecret request.nonce kvs⟩

/-- Whether some entry is followed by one with a smaller key. -/
def unsorted (kvs : KeyValues Int64) : Bool :=
  (kvs.zip kvs.tail).any fun kv => !decide (kv.1.1.le kv.2.1)

/-- A conflict as it is reported: an absent key has the version -1. -/
def conflictToProto : Text × Option Value → Text × Value
  | (key, some existing) => (key, existing)
  | (key, none) => (key, ⟨-1, []⟩)

/-- The answer to a put for each outcome of the database. -/
def putReply (secret : List UInt8) (kvs : KeyValues Int64) :
    Except (Fault DbError) Unit → Except (Fault Status) PutReply
  | .ok () => .ok ⟨true, computeSharedHmac S.hmac secret [0x02] kvs, []⟩
  | .error (.refuse (.conflict conflicts)) => .ok ⟨false, [], conflicts.map conflictToProto⟩
  | .error (.refuse (.database _)) => .error (.refuse ⟨.internal, "unexpected error"⟩)
  | .error (.abort message) => .error (.abort message)

/-- Store a list and answer with the outcome. -/
def store (auth : Auth) (priv : PrivAuth κ) (kvs : KeyValues Int64) : Effect σ Status PutReply :=
  ExceptT.mk fun db =>
    let (result, db') := (S.database.put auth.clientId kvs).exec db
    (S.putReply priv.sharedSecret kvs result, db')

/-- The checks of a put request. -/
def checkPut (request : PutRequest) : Except (Fault Status) (Auth × PrivAuth κ) := do
  let auth ← requireAuth request.auth
  refuseIf (unsorted request.kvs = true) ⟨.invalidArgument, "keys are not sorted"⟩
  let priv ← S.checkAuth auth
  refuseIf (computeSharedHmac S.hmac priv.sharedSecret [0x01] request.kvs ≠ request.hmac)
    ⟨.invalidArgument, "invalid client HMAC"⟩
  return (auth, priv)

/-- Store a list that the client has authenticated. -/
def put (request : PutRequest) : Effect σ Status PutReply := do
  let (auth, priv) ← Effect.lift (S.checkPut request)
  S.store auth priv request.kvs

/-- A request to the server. -/
inductive Request where
  | get (request : GetRequest)
  | put (request : PutRequest)

/-- A reply of the server. -/
inductive Reply where
  | get (reply : GetReply)
  | put (reply : PutReply)
  deriving DecidableEq

/-- The HMAC of a reply. -/
def Reply.hmac : Reply → List UInt8
  | .get reply => reply.hmac
  | .put reply => reply.hmac

/-- The server as a machine over its database; a request whose handler panics gets no reply and does
not stop the server. -/
def machine : Machine σ Request (Except (Fault Status) Reply) where
  step db
    | .get request => (db, (S.get request db).map .get)
    | .put request =>
      let (result, db') := (S.put request).exec db
      (db', result.map .put)

/-! ## Inversion -/

variable {S} {request : PutRequest} {auth : Auth} {db : σ} {priv : PrivAuth κ}

theorem requireAuth_eq_ok {request : Option Auth} :
    requireAuth request = .ok auth ↔ request = some auth := by
  cases request <;> simp [requireAuth]

/-- A served get carries the entries the database returned, authenticated with the nonce. -/
theorem get_eq_ok {request : GetRequest} {reply : GetReply} (h : S.get request db = .ok reply) :
    ∃ auth priv, request.auth = some auth ∧ S.checkAuth auth = .ok priv ∧
      S.database.getWithPrefix auth.clientId request.keyPrefix db = .ok reply.kvs ∧
      reply.hmac = computeSharedHmac S.hmac priv.sharedSecret request.nonce reply.kvs := by
  unfold get at h
  obtain ⟨auth, hauth, h⟩ := bind_ok h
  obtain ⟨priv, hpriv, h⟩ := bind_ok h
  obtain ⟨kvs, hkvs, h⟩ := bind_ok h
  rw [pure_eq_ok] at h
  subst h
  refine ⟨auth, priv, requireAuth_eq_ok.mp hauth, hpriv, ?_, rfl⟩
  cases hdb : S.database.getWithPrefix auth.clientId request.keyPrefix db with
  | error e =>
    rw [hdb] at hkvs
    cases hkvs
  | ok l =>
    rw [hdb] at hkvs
    obtain rfl : l = kvs := Except.ok.inj hkvs
    rfl

/-- A get of an authenticated client is served when the database returns entries. -/
theorem get_of_getWithPrefix {request : GetRequest} {kvs : KeyValues Int64}
    (hauth : request.auth = some auth) (hpriv : S.checkAuth auth = .ok priv)
    (hkvs : S.database.getWithPrefix auth.clientId request.keyPrefix db = .ok kvs) :
    S.get request db =
      .ok ⟨kvs, computeSharedHmac S.hmac priv.sharedSecret request.nonce kvs⟩ := by
  rw [get, hauth, requireAuth, ok_bind, hpriv, ok_bind, hkvs]
  rfl

/-- A put that passes the checks is sorted and authenticated by its client. -/
theorem checkPut_eq_ok (h : S.checkPut request = .ok (auth, priv)) :
    request.auth = some auth ∧ unsorted request.kvs = false ∧ S.checkAuth auth = .ok priv ∧
      computeSharedHmac S.hmac priv.sharedSecret [0x01] request.kvs = request.hmac := by
  unfold checkPut at h
  obtain ⟨auth', hauth, h⟩ := bind_ok h
  obtain ⟨_, hsorted, h⟩ := bind_ok h
  obtain ⟨priv', hpriv, h⟩ := bind_ok h
  obtain ⟨_, hhmac, h⟩ := bind_ok h
  rw [pure_eq_ok] at h
  cases h
  rw [refuseIf_eq_ok, Bool.not_eq_true] at hsorted
  rw [refuseIf_eq_ok, not_not] at hhmac
  exact ⟨requireAuth_eq_ok.mp hauth, hsorted, hpriv, hhmac⟩

/-- A put that passes the checks is answered as the database does. -/
theorem exec_put_of_checkPut (h : S.checkPut request = .ok (auth, priv)) (db : σ) :
    (S.put request).exec db =
      (S.putReply priv.sharedSecret request.kvs
        ((S.database.put auth.clientId request.kvs).exec db).1,
        ((S.database.put auth.clientId request.kvs).exec db).2) := by
  rw [put, Effect.exec_bind, Effect.exec_lift, h]
  rfl

/-- An acknowledgement comes from an accepted put; a reply to a conflict carries no HMAC. -/
theorem putReply_eq_ok {secret : List UInt8} {kvs : KeyValues Int64}
    {result : Except (Fault DbError) Unit} {reply : PutReply}
    (h : S.putReply secret kvs result = .ok reply) :
    (reply.success = true ∧ result = .ok () ∧
        reply.hmac = computeSharedHmac S.hmac secret [0x02] kvs) ∨
      reply.success = false ∧ reply.hmac = [] := by
  rcases result with ((_ | _) | _) | _
  · cases h
  · cases h
    exact .inr ⟨rfl, rfl⟩
  · cases h
  · cases h
    exact .inl ⟨rfl, rfl, rfl⟩

/-- A put that is answered has passed the checks; it is acknowledged exactly when the database has
accepted it, and a reply to a conflict carries no HMAC. -/
theorem put_eq_ok {db db' : σ} {reply : PutReply} (h : (S.put request).exec db = (.ok reply, db')) :
    ∃ auth priv, S.checkPut request = .ok (auth, priv) ∧
      ((reply.success = true ∧ (S.database.put auth.clientId request.kvs).exec db = (.ok (), db') ∧
          reply.hmac = computeSharedHmac S.hmac priv.sharedSecret [0x02] request.kvs) ∨
        reply.success = false ∧ reply.hmac = []) := by
  cases hcheck : S.checkPut request with
  | error e =>
    rw [put, Effect.exec_bind, Effect.exec_lift, hcheck] at h
    cases h
  | ok checked =>
    obtain ⟨auth, priv⟩ := checked
    rw [exec_put_of_checkPut hcheck] at h
    obtain ⟨hreply, rfl⟩ := Prod.mk.inj h
    refine ⟨auth, priv, rfl, ?_⟩
    rcases putReply_eq_ok hreply with ⟨hsuccess, hresult, hhmac⟩ | hfailed
    · exact .inl ⟨hsuccess, Prod.ext hresult rfl, hhmac⟩
    · exact .inr hfailed

/-- A reply to a get comes from the get. -/
theorem step_get_ok {request : GetRequest} {reply : Reply}
    (h : (S.machine.step db (.get request)).2 = .ok reply) :
    ∃ r, reply = .get r ∧ S.get request db = .ok r := by
  change (S.get request db).map Reply.get = .ok reply at h
  cases hget : S.get request db with
  | error e =>
    rw [hget] at h
    cases h
  | ok r =>
    rw [hget] at h
    exact ⟨r, (Except.ok.inj h).symm, rfl⟩

/-- A reply to a put comes from the put. -/
theorem step_put_ok {reply : Reply} (h : (S.machine.step db (.put request)).2 = .ok reply) :
    ∃ r, reply = .put r ∧
      (S.put request).exec db = (.ok r, (S.machine.step db (.put request)).1) := by
  change ((S.put request).exec db).1.map Reply.put = .ok reply at h
  change ∃ r, reply = .put r ∧ (S.put request).exec db = (.ok r, ((S.put request).exec db).2)
  rcases hput : (S.put request).exec db with ⟨_ | r, db'⟩
  · rw [hput] at h
    cases h
  · rw [hput] at h
    exact ⟨r, (Except.ok.inj h).symm, rfl⟩

end StorageServer

/-! ## A server to evaluate -/

namespace Sample

/-- A function of two byte strings that tells all pairs apart and is never empty. -/
def framed (secret message : List UInt8) : List UInt8 :=
  secret.flatMap (fun byte => [1, byte]) ++ 0 :: message

theorem framed_inj {secret secret' message message' : List UInt8}
    (h : framed secret message = framed secret' message') :
    secret = secret' ∧ message = message' := by
  induction secret generalizing secret' with
  | nil =>
    cases secret' with
    | nil => exact ⟨rfl, (List.cons.inj h).2⟩
    | cons byte secret' => cases (List.cons.inj h).1
  | cons byte secret ih =>
    cases secret' with
    | nil => cases (List.cons.inj h).1
    | cons byte' secret' =>
      have htail := (List.cons.inj h).2
      obtain ⟨hbyte, htail⟩ := List.cons.inj htail
      obtain ⟨hsecret, hmessage⟩ := ih htail
      exact ⟨by rw [hbyte, hsecret], hmessage⟩

theorem framed_ne_nil (secret message : List UInt8) : framed secret message ≠ [] := by
  simp [framed]

/-- A server whose clients are their identifiers. -/
def server : StorageServer SledDatabase (List UInt8) where
  database := SledDatabase.database .checked
  fromSlice := some
  ecdh key := 7 :: key
  sha256 message := [UInt8.ofNat message.length]
  hmac := framed

/-- The identity of the client with the one-byte identifier 3. -/
def auth : Auth := ⟨[3], [2]⟩

/-- The secret that the server shares with this client. -/
def secret : List UInt8 := [7, 3]

/-- A put of this client. -/
def putOf (kvs : KeyValues Int64) : StorageServer.Request :=
  .put ⟨some auth, kvs, computeSharedHmac framed secret [0x01] kvs⟩

end Sample

end ValidatingSigner.Storage
