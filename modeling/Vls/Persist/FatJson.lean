import Vls.Base.Files
import Vls.Persist.Basic

/-!
# The embedded persister

Every entry is a file of its own on a FAT file system.  A new value is written beside the current
file, which is then retired, replaced and expunged in turn.  Reading needs the current file, and
listing the channels rejects every other file in their directory.
-/

namespace ValidatingSigner

open Base Persist

/-- The directories of the store. -/
inductive Bucket where
  | node
  | nodestate
  | channel
  | allowlist
  | chaintracker
  deriving DecidableEq

/-- The files of a key: the current one, the one that replaces it and the one it replaces. -/
inductive FileKind where
  | old
  | cur
  | new
  deriving DecidableEq

/-- The end of the name of a file. -/
def FileKind.suffix : FileKind → Text
  | old => ".old".toList
  | cur => ".json".toList
  | new => ".new".toList

/-- A file of the store. -/
structure FilePath where
  bucket : Bucket
  key : Text
  kind : FileKind
  deriving DecidableEq

namespace FatJson

/-- An operation on the device of the store. -/
abbrev FatOp := Effect (Device FilePath) PersistError

/-- The error of the persister for one of the file system. -/
def fileError : FileError → PersistError
  | .notFound => .notFound "NotFound"
  | .alreadyExists => .alreadyExists "AlreadyExists"

/-! ## Files -/

section Values

variable (bucket : Bucket) (key : Text)

def writeNewFile (value : List UInt8) : FatOp Unit := do
  fileOp fileError fun files => files.create ⟨bucket, key, .new⟩
  fileOp fileError fun files => files.write ⟨bucket, key, .new⟩ value

def retireCurFile : FatOp Unit :=
  fileOp fileError fun files => files.rename ⟨bucket, key, .cur⟩ ⟨bucket, key, .old⟩

def replaceFile : FatOp Unit :=
  fileOp fileError fun files => files.rename ⟨bucket, key, .new⟩ ⟨bucket, key, .cur⟩

def expungeOldFile : FatOp Unit :=
  fileOp fileError fun files => files.remove ⟨bucket, key, .old⟩

/-- Update or create a value. -/
def upsertValue (value : List UInt8) : FatOp Unit := do
  writeNewFile bucket key value
  Effect.attempt (retireCurFile bucket key)
  replaceFile bucket key
  Effect.attempt (expungeOldFile bucket key)

/-- Create a value, which must not exist. -/
def insertValue (value : List UInt8) : FatOp Unit := do
  writeNewFile bucket key value
  replaceFile bucket key

/-- Update a value, which must exist. -/
def updateValue (value : List UInt8) : FatOp Unit := do
  writeNewFile bucket key value
  retireCurFile bucket key
  replaceFile bucket key
  expungeOldFile bucket key

/-- Delete a value, which must exist. -/
def deleteValue : FatOp Unit := do
  retireCurFile bucket key
  expungeOldFile bucket key

/-- Read a value. -/
def readValue (files : Files FilePath) : Except (Fault PersistError) (List UInt8) :=
  match files.lookup ⟨bucket, key, .cur⟩ with
  | some value => .ok value
  | none => .error (.refuse (fileError .notFound))

/-- List the keys of a directory, in which all files must be current ones. -/
def listKeys (files : Files FilePath) : Except (Fault PersistError) (List Text) :=
  let found := files.keys.filter fun path => path.bucket = bucket
  match found.find? fun path => path.kind ≠ .cur with
  | some path => .error (.refuse (.internal
      ("list keys: bad file: " ++ String.ofList (path.key ++ path.kind.suffix))))
  | none => .ok (found.map FilePath.key)

end Values

/-! ## The persister -/

def nodeKey : Text := "node".toList
def nodestateKey : Text := "nodestate".toList
def allowlistKey : Text := "allowlist".toList
def chaintrackerKey : Text := "chaintracker".toList

def channelKey (channelId : ChannelId) : Text := Text.hex channelId.bytes

section Calls

variable (J : Json)

def newNode (config : NodeConfig) (state : NodeState) : FatOp Unit := do
  insertValue .node nodeKey (J.node.toVec (.ofConfig config))
  upsertValue .nodestate nodestateKey (J.state.toVec (.ofState state))

def updateNode (state : NodeState) : FatOp Unit :=
  updateValue .nodestate nodestateKey (J.state.toVec (.ofState state))

def newChainTracker (tracker : MonitorTracker) : FatOp Unit :=
  upsertValue .chaintracker chaintrackerKey (J.tracker.toVec (.ofTracker tracker))

def updateTracker (tracker : MonitorTracker) : FatOp Unit :=
  updateValue .chaintracker chaintrackerKey (J.tracker.toVec (.ofTracker tracker))

def newChannel (stub : ChannelStub) : FatOp Unit :=
  insertValue .channel (channelKey stub.id0) (J.channel.toVec (.ofStub stub))

def deleteChannel (channelId : ChannelId) : FatOp Unit :=
  deleteValue .channel (channelKey channelId)

def updateChannel (channel : ReadyChannel) : FatOp Unit :=
  updateValue .channel (channelKey channel.id0) (J.channel.toVec (.ofChannel channel))

def updateNodeAllowlist (allowlist : List String) : FatOp Unit :=
  upsertValue .allowlist allowlistKey (J.allowlist.toVec allowlist)

/-- Make a call of the persister. -/
def call : PersistCall → FatOp Unit
  | .newNode config state => newNode J config state
  | .updateNode state => updateNode J state
  | .newChannel stub => newChannel J stub
  | .deleteChannel channelId => deleteChannel channelId
  | .newChainTracker tracker => newChainTracker J tracker
  | .updateTracker tracker => updateTracker J tracker
  | .updateChannel channel => updateChannel J channel
  | .updateNodeAllowlist allowlist => updateNodeAllowlist J allowlist

variable (files : Files FilePath)

/-- The value that bytes serialize. -/
def fromStr {α : Type} (C : Codec α) (bytes : List UInt8) : Except (Fault PersistError) α :=
  match C.fromSlice bytes with
  | some a => .ok a
  | none => .error (.refuse (.internal "serde_json failed"))

def getTracker : Except (Fault PersistError) MonitorTracker := do
  let entry ← fromStr J.tracker (← readValue .chaintracker chaintrackerKey files)
  return entry.intoTracker

def getNodeAllowlist : Except (Fault PersistError) (List String) := do
  fromStr J.allowlist (← readValue .allowlist allowlistKey files)

/-- A channel whose key was listed. -/
def readChannel (key : Text) : Except (Fault PersistError) (ChannelId × Persist.ChannelEntry) :=
  match Text.unhex key with
  | some bytes => do
    let entry ← fromStr J.channel (← readValue .channel key files)
    return (⟨bytes⟩, entry)
  | none => .error (.refuse (.internal "hex decode failed"))

def getNodeChannels : Except (Fault PersistError) (List (ChannelId × Persist.ChannelEntry)) := do
  let keys ← listKeys .channel files
  keys.mapM (readChannel J files)

/-- The node, if it is stored; the store belongs to one node. -/
def getNodes (sha256 : Bytes32 → Bytes32) (nodeId : PublicKey) :
    Except (Fault PersistError) (List (PublicKey × CoreNodeEntry)) :=
  match readValue .node nodeKey files with
  | .ok value => do
    let entry ← fromStr J.node value
    let state ← fromStr J.state (← readValue .nodestate nodestateKey files)
    return [(nodeId, entry.withState sha256 state)]
  | .error _ => .ok []

end Calls

end FatJson

end ValidatingSigner
