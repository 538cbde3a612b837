import FastcgiContainer.Disk
import FastcgiContainer.StringUtils

/-! `FileRequestCache`: requests are kept in files to be handled once more after a delay.
A file lives as long as it has a name; the name that a buffer was opened under goes when
the buffer does (`FileHolder`), so a request that is put off gets a second name first. -/

namespace FastcgiContainer

open Word (Bytes)

namespace HashUtils

def alpha (digit : UInt8) : UInt8 := if digit < 10 then 0x30 + digit else 0x61 + (digit - 10)

def hexMD5 (md5buffer : Fin 16 → UInt8) : Bytes :=
  (List.ofFn md5buffer).flatMap (fun byte : UInt8 => [alpha ((byte &&& 0xf0) >>> 4), alpha (byte &&& 0xf)])

theorem length_hexMD5 (md5buffer : Fin 16 → UInt8) : (hexMD5 md5buffer).length = 32 := by
  simp [hexMD5]

end HashUtils

structure DelayTask where
  key : Bytes
  retries : Nat
  deriving DecidableEq, Repr

structure CacheConfig where
  cacheDir : Bytes
  maxRetries : Nat

/-- `drawn` keys were generated; `waiting` is in the order of its times. -/
structure FileRequestCache where
  disk : Disk Bytes Bytes
  waiting : List (Int × DelayTask)
  active : OrderedMap Bytes Nat stringLess
  drawn : Nat
  now : Int

structure Calls where
  opens : Bool
  links : Bool

namespace FileRequestCache

def blank : FileRequestCache := ⟨Disk.blank, [], .empty, 0, 0⟩

section Generator

variable (keys : Nat → Bytes) (config : CacheConfig)

def generateUniqueKey (cache : FileRequestCache) : FileRequestCache × Bytes :=
  ({ cache with drawn := cache.drawn + 1 }, keys cache.drawn)

def path (key : Bytes) : Bytes := config.cacheDir ++ key

def createFileBuffer (cache : FileRequestCache) (key : Bytes) (opens : Bool) :
    Except Exn (FileRequestCache × Nat) :=
  if opens then
    let (disk, file) := cache.disk.openFile (path config key) []
    .ok ({ cache with disk }, file)
  else .error (.runtimeError "cannot open file")

/-- What happens when the last buffer on a file is dropped. -/
def dropBuffer (cache : FileRequestCache) (filename : Bytes) : FileRequestCache :=
  { cache with disk := cache.disk.unlink filename }

def create (cache : FileRequestCache) (opens : Bool) :
    FileRequestCache × Except Exn (Bytes × Nat) :=
  let (cache, key) := cache.generateUniqueKey keys
  match cache.createFileBuffer config key opens with
  | .error exn => (cache, .error exn)
  | .ok (cache, file) => ({ cache with active := cache.active.insert key 0 }, .ok (key, file))

/-- A body in a file of the cache has a name in its directory; the name of a body in
memory is empty. -/
def isStored (filename : Bytes) : Bool :=
  !filename.isEmpty && StringUtils.beginsWith filename config.cacheDir

def getStoredKey (filename : Bytes) : Bytes :=
  if isStored config filename then filename.drop config.cacheDir.length else []

def getKey (cache : FileRequestCache) (filename : Bytes) : FileRequestCache × Bytes :=
  let key := getStoredKey config filename
  if key.isEmpty then cache.generateUniqueKey keys else (cache, key)

/-- The new key is empty if the link failed. -/
def createHardLink (cache : FileRequestCache) (key : Bytes) (links : Bool) :
    FileRequestCache × Bytes :=
  let (cache, newKey) := cache.generateUniqueKey keys
  match if links then cache.disk.link (path config key) (path config newKey) else none with
  | none => (cache, [])
  | some disk => ({ cache with disk }, newKey)

/-- `image` is what `serialize` writes for the request. Its buffer is dropped when the
function returns. -/
def saveRequest (cache : FileRequestCache) (filename : Bytes) (image : Except Exn Bytes)
    (key : Bytes) (calls : Calls) : FileRequestCache × Except Exn Bytes :=
  if !isStored config filename then
    match cache.createFileBuffer config key calls.opens with
    | .error exn => (cache, .error exn)
    | .ok (cache, file) =>
        match image with
        | .error exn => (cache.dropBuffer (path config key), .error exn)
        | .ok data =>
            let written := { cache with disk := cache.disk.writeFile file data }
            let (cache, newKey) := written.createHardLink keys config key calls.links
            (cache.dropBuffer (path config key), .ok newKey)
  else
    let (cache, newKey) := cache.createHardLink keys config key calls.links
    (cache, .ok newKey)

def eraseActive (cache : FileRequestCache) (key : Bytes) : FileRequestCache :=
  { cache with active := cache.active.erase key }

/-- Behind the tasks that are due at the same time or earlier. -/
def placeTask (time : Int) (task : DelayTask) : List (Int × DelayTask) → List (Int × DelayTask)
  | [] => [(time, task)]
  | other :: rest =>
      if other.1 ≤ time then other :: placeTask time task rest else (time, task) :: other :: rest

def insertWaiting (cache : FileRequestCache) (delay : Int) (key : Bytes) (retries : Nat) :
    FileRequestCache :=
  { cache with waiting := placeTask (cache.now + delay) ⟨key, retries⟩ cache.waiting }

/-- Saves a request that is to be tried for the given number of times; one that was in
`active` leaves it in any case. -/
def putOff (cache : FileRequestCache) (filename : Bytes) (delay : Int) (image : Except Exn Bytes)
    (key : Bytes) (found : Bool) (retries : Nat) (calls : Calls) :
    FileRequestCache × Except Exn Unit :=
  match cache.saveRequest keys config filename image key calls with
  | (cache, .error exn) => (cache, .error exn)
  | (cache, .ok newKey) =>
      let cache := if found then cache.eraseActive key else cache
      if newKey.isEmpty then (cache, .ok ())
      else (cache.insertWaiting delay newKey retries, .ok ())

def save (cache : FileRequestCache) (filename : Bytes) (delay : Int) (image : Except Exn Bytes)
    (calls : Calls) : FileRequestCache × Except Exn Unit :=
  if delay = 0 ∨ config.maxRetries = 0 then
    let key := getStoredKey config filename
    if key.isEmpty then (cache, .ok ()) else (cache.eraseActive key, .ok ())
  else
    let (cache, key) := cache.getKey keys config filename
    match cache.active.find? key with
    | none => cache.putOff keys config filename delay image key false 1 calls
    | some retries =>
        if retries ≥ config.maxRetries then (cache.eraseActive key, .ok ())
        else cache.putOff keys config filename delay image key true (retries + 1) calls

def takeWaiting (cache : FileRequestCache) : Option (FileRequestCache × DelayTask) :=
  match cache.waiting with
  | [] => none
  | (time, task) :: rest => if time > cache.now then none else some ({ cache with waiting := rest }, task)

/-- One round of the thread: it opens the file of the first task that is due. -/
def handle (cache : FileRequestCache) (opens : Bool) : FileRequestCache × Option DelayTask :=
  match cache.takeWaiting with
  | none => (cache, none)
  | some (cache, task) =>
      match cache.createFileBuffer config task.key opens with
      | .error _ => (cache, none)
      | .ok (cache, _) =>
          ({ cache with active := cache.active.insert task.key task.retries }, some task)

end Generator

end FileRequestCache

/-- What the cache knows of a request: the file of its body, which is empty for a body in
memory. The other fields say what became of it. -/
structure CachedRequest where
  filename : Bytes
  delay : Int
  origin : Nat
  executed : Bool
  saves : Nat
  released : Bool
  deriving DecidableEq, Repr

/-- The cache and the requests. `images` has what each of the original requests looks
like when it is written; `owner` says whose image a key was made for. -/
structure CacheWorld where
  cache : FileRequestCache
  requests : List CachedRequest
  images : List Bytes
  owner : Bytes → Option Nat

namespace CacheWorld

inductive Action where
  | arrive (image : Bytes)
  | create (image : Bytes) (opens : Bool)
  | execute (index : Nat)
  | tryAgain (index : Nat) (delay : Int)
  | save (index : Nat) (serializes : Except Exn Unit) (calls : Calls)
  | handle (opens parses : Bool)
  | release (index : Nat)
  | elapse (time : Nat)

def start : CacheWorld := ⟨.blank, [], [], fun _ => none⟩

def original (filename : Bytes) (origin : Nat) : CachedRequest := ⟨filename, 0, origin, false, 0, false⟩

def change (world : CacheWorld) (index : Nat) (request : CachedRequest) : CacheWorld :=
  { world with requests := world.requests.set index request }

def live (world : CacheWorld) (index : Nat) : Option CachedRequest :=
  (world.requests[index]?).filter (fun request => !request.released)

section Generator

variable (keys : Nat → Bytes) (config : CacheConfig)

open FileRequestCache (path)

/-- `Request::attach` opens a file of the cache and writes the request to it. -/
def attach (world : CacheWorld) (image : Bytes) (opens : Bool) : CacheWorld :=
  match world.cache.create keys config opens with
  | (cache, .error _) => { world with cache }
  | (cache, .ok (key, file)) =>
      { cache := { cache with disk := cache.disk.writeFile file image }
        requests := world.requests ++ [original (path config key) world.images.length]
        images := world.images ++ [image]
        owner := Function.update world.owner key (some world.images.length) }

def own (world : CacheWorld) (cache : FileRequestCache) (origin : Nat) : Bytes → Option Nat :=
  fun key =>
    if ((List.range cache.drawn).drop world.cache.drawn).any (fun number => keys number == key) then
      some origin
    else world.owner key

def saveToCache (world : CacheWorld) (index : Nat) (request : CachedRequest)
    (serializes : Except Exn Unit) (calls : Calls) : CacheWorld :=
  let image := serializes.map (fun _ => world.images.getD request.origin [])
  let cache := (world.cache.save keys config request.filename request.delay image calls).1
  { world with
    cache
    owner := world.own keys cache request.origin
    requests := world.requests.set index { request with saves := request.saves + 1 } }

/-- The thread makes a request from the file; it is destroyed at once if that fails. -/
def retry (world : CacheWorld) (opens parses : Bool) : CacheWorld :=
  match world.cache.handle config opens with
  | (cache, none) => { world with cache }
  | (cache, some task) =>
      if parses then
        { world with
          cache
          requests := world.requests ++
            [original (path config task.key) ((world.owner task.key).getD 0)] }
      else { world with cache := cache.dropBuffer (path config task.key) }

def release (world : CacheWorld) (index : Nat) (request : CachedRequest) : CacheWorld :=
  { world with
    cache := if request.filename.isEmpty then world.cache
      else world.cache.dropBuffer request.filename
    requests := world.requests.set index { request with released := true } }

def step (world : CacheWorld) : Action → CacheWorld
  | .arrive image =>
      { world with
        requests := world.requests ++ [original [] world.images.length]
        images := world.images ++ [image] }
  | .create image opens => world.attach keys config image opens
  | .execute index =>
      match world.live index with
      | none => world
      | some request => world.change index { request with executed := true }
  | .tryAgain index delay =>
      match world.live index with
      | none => world
      | some request => world.change index { request with delay }
  | .save index serializes calls =>
      match world.live index with
      | none => world
      | some request => world.saveToCache keys config index request serializes calls
  | .handle opens parses => world.retry config opens parses
  | .release index =>
      match world.live index with
      | none => world
      | some request => world.release index request
  | .elapse time => { world with cache := { world.cache with now := world.cache.now + time } }

def run (world : CacheWorld) (actions : List Action) : CacheWorld :=
  actions.foldl (step keys config) world

end Generator

end CacheWorld

end FastcgiContainer
