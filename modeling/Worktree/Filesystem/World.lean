import Worktree.CrashLogic.LinkTable
import Worktree.CrashLogic.Pool
import Mathlib.Data.BitVec
/-
The file system under a worktree, as the calls of the program see it.

Directories map names to inodes; a regular file may have several names, and
several spellings of a name, or several directory entries, may lead to one
place. Inode numbers of removed files may be handed out again. A completed call
persists; a crash ends the program and releases its locks.
-/

namespace Worktree

open CrashLogic

abbrev Bytes := List UInt8

abbrev Ino := Nat

/-- The twelve permission bits. -/
abbrev Mode := BitVec 12

inductive ErrorKind
  | notFound
  | alreadyExists
  | permissionDenied
  | invalidInput
  | invalidData
  | other
  deriving DecidableEq, Repr

structure IoError where
  kind : ErrorKind
  message : String
  deriving DecidableEq, Repr

inductive FileKind
  | file
  | directory
  | symlink
  deriving DecidableEq, Repr

structure Inode where
  kind : FileKind
  device : Nat
  bytes : Bytes
  mode : Mode
  deriving DecidableEq

/-- One directory entry, whatever spelling led to it. -/
structure Slot where
  dir : Ino
  name : String
  deriving DecidableEq

structure Metadata where
  kind : FileKind
  device : Nat
  inode : Ino
  links : Nat
  length : Nat
  mode : Mode
  deriving DecidableEq

/-! ### Names the program makes up itself -/

def hasPrefix (name start : String) : Bool :=
  start.toList.isPrefixOf name.toList

/-- The name is this beginning, thirty-two lowercase hexadecimal characters, and such an
ending. -/
def bearsId (start : String) (ending : List Char → Bool) (name : String) : Bool :=
  hasPrefix name start &&
    let rest := name.toList.drop start.toList.length
    (rest.take 32).length = 32 &&
      ((rest.take 32).all fun char => ('0' ≤ char && char ≤ '9') || ('a' ≤ char && char ≤ 'f')) &&
      ending (rest.drop 32)

/-- What follows the identifier in the name of an artifact: its number, and what it is. -/
def artifactEnding (rest : List Char) : Bool :=
  rest.head? = some '-' &&
    [".stage".toList, ".backup".toList].contains (rest.tail.dropWhile Char.isDigit)

/-- Names of the state directories, of the files kept there, of receipts and of artifacts. -/
def ownName (name : String) : Bool :=
  [".weavatrix", "worktree", "lock", "active.jsonl", "active-v2.jsonl", "active-v3.jsonl",
      "active-undo.jsonl"].contains name ||
    bearsId "undo-" (· = ".json".toList) name || bearsId ".weavatrix-" artifactEnding name

/-- How the file system reads names, and what the process brings along. Where it knows
one entry by several spellings, the names that the program makes up are read as they
are, and no spelling takes the beginning of an artifact's name away. -/
structure Host where
  fold : Ino → String → String
  foldOwn : ∀ dir name, ownName name = true → fold dir name = name
  foldArtifact : ∀ dir name, hasPrefix name ".weavatrix-" = true →
    hasPrefix (fold dir name) ".weavatrix-" = true
  freshMode : Mode

def Host.slot (host : Host) (dir : Ino) (name : String) : Slot :=
  ⟨dir, host.fold dir name⟩

/-- A file system that tells every two names apart, and a umask of `0o022`. -/
def Host.plain : Host := ⟨fun _ name => name, fun _ _ _ => rfl, fun _ _ starts => starts, 0o644⟩

/-- `spare` and `entropy` are what the kernel will answer when it is asked for
an inode number or for random bytes. -/
structure World where
  table : LinkTable Slot Ino
  inodes : Ino → Inode
  root : Ino
  spare : List Ino
  entropy : List Bytes
  locks : List Ino

/-- Everything a reader can find out about one directory entry. -/
structure Seen where
  ino : Ino
  inode : Inode
  links : Nat
  deriving DecidableEq

def Seen.metadata (seen : Seen) : Metadata :=
  { kind := seen.inode.kind
    device := seen.inode.device
    inode := seen.ino
    links := seen.links
    length := seen.inode.bytes.length
    mode := seen.inode.mode }

namespace World

def seen (world : World) (ino : Ino) : Seen :=
  ⟨ino, world.inodes ino, LinkTable.links world.table ino⟩

def look (world : World) (slot : Slot) : Option Seen :=
  (world.table.lookup slot).map world.seen

/-! ### Changes of the world -/

def Free (world : World) (ino : Ino) : Prop :=
  LinkTable.links world.table ino = 0 ∧ ino ≠ world.root

instance (world : World) (ino : Ino) : Decidable (world.Free ino) :=
  inferInstanceAs (Decidable (_ ∧ _))

/-- An inode number above every one in use. -/
def beyond (world : World) : Ino :=
  (world.table.entries.map Sigma.snd).foldr max world.root + 1

/-- The next inode number to hand out, and the answers left after it. -/
def nextFree (world : World) : List Ino → Ino × List Ino
  | [] => (world.beyond, [])
  | ino :: rest => if world.Free ino then (ino, rest) else nextFree world rest

def setInode (world : World) (ino : Ino) (inode : Inode) : World :=
  { world with inodes := Function.update world.inodes ino inode }

/-- A fresh inode under a name nobody has. -/
def make (world : World) (slot : Slot) (inode : Inode) : World :=
  { world with
    table := world.table.insert slot (world.nextFree world.spare).1
    inodes := Function.update world.inodes (world.nextFree world.spare).1 inode
    spare := (world.nextFree world.spare).2 }

def append (world : World) (ino : Ino) (bytes : Bytes) : World :=
  world.setInode ino { world.inodes ino with bytes := (world.inodes ino).bytes ++ bytes }

def resize (world : World) (ino : Ino) (length : Nat) : World :=
  world.setInode ino { world.inodes ino with
    bytes := (world.inodes ino).bytes.take length ++
      List.replicate (length - (world.inodes ino).bytes.length) 0 }

def chmod (world : World) (ino : Ino) (mode : Mode) : World :=
  world.setInode ino { world.inodes ino with mode := mode }

def unlink (world : World) (slot : Slot) : World :=
  { world with table := world.table.erase slot }

def link (world : World) (slot : Slot) (ino : Ino) : World :=
  { world with table := world.table.insert slot ino }

/-- The entry moves; what the destination named loses that name. -/
def move (world : World) (source destination : Slot) (ino : Ino) : World :=
  { world with table := (world.table.erase source).insert destination ino }

/-- A crash: every process is gone, and its locks with it. -/
def reboot (world : World) : World :=
  { world with locks := [] }

end World

/-! ### Calls -/

inductive OpenMode
  | read
  | readWrite
  | create
  | createNew
  deriving DecidableEq, Repr

/-- The calls that may fail, with what they answer when they do not. -/
inductive FsCall : Type → Type
  | cloneHandle (handle : Ino) : FsCall Unit
  | dirMetadata (dir : Ino) : FsCall Metadata
  | symlinkMetadata (dir : Ino) (name : String) : FsCall Metadata
  | openDir (dir : Ino) (name : String) : FsCall Ino
  | createDir (dir : Ino) (name : String) : FsCall Unit
  | openFile (dir : Ino) (name : String) (mode : OpenMode) : FsCall Ino
  | metadata (file : Ino) : FsCall Metadata
  | read (file : Ino) (limit : Nat) : FsCall Bytes
  | write (file : Ino) (bytes : Bytes) : FsCall Unit
  | setPermissions (file : Ino) (mode : Mode) : FsCall Unit
  | setLength (file : Ino) (length : Nat) : FsCall Unit
  | syncFile (file : Ino) : FsCall Unit
  | syncDir (dir : Ino) : FsCall Unit
  | rename (dir : Ino) (name : String) (toDir : Ino) (toName : String) : FsCall Unit
  | hardLink (dir : Ino) (name : String) (toDir : Ino) (toName : String) : FsCall Unit
  | removeFile (dir : Ino) (name : String) : FsCall Unit
  | entries (dir : Ino) : FsCall (List String)
  | tryLock (file : Ino) : FsCall Bool
  | random (count : Nat) : FsCall Bytes

/-- `refuseAppend` changes nothing: it marks where a journal refuses a record for
its size, so that a statement can speak about those places. A run may be cut
there as anywhere. -/
inductive FsOp : Type → Type 1
  | io {τ : Type} (call : FsCall τ) : FsOp (Except IoError τ)
  | unlock (file : Ino) : FsOp Unit
  | refuseAppend : FsOp Unit

def IoError.missing : IoError := ⟨.notFound, "No such file or directory"⟩

def IoError.occupied : IoError := ⟨.alreadyExists, "File exists"⟩

def IoError.notADirectory : IoError := ⟨.other, "Not a directory"⟩

def IoError.aDirectory : IoError := ⟨.other, "Is a directory"⟩

def IoError.looped : IoError := ⟨.other, "Too many levels of symbolic links"⟩

def IoError.crossesDevices : IoError := ⟨.other, "Invalid cross-device link"⟩

namespace FsCall

def execOpen (host : Host) (world : World) (dir : Ino) (name : String) :
    OpenMode → Except IoError Ino × World
  | .createNew =>
      match world.look (host.slot dir name) with
      | some _ => (.error .occupied, world)
      | none =>
          (.ok (world.nextFree world.spare).1, world.make (host.slot dir name)
            ⟨.file, (world.inodes dir).device, [], host.freshMode⟩)
  | .create =>
      match world.look (host.slot dir name) with
      | some found =>
          match found.inode.kind with
          | .file => (.ok found.ino, world)
          | .directory => (.error .aDirectory, world)
          | .symlink => (.error .looped, world)
      | none =>
          (.ok (world.nextFree world.spare).1, world.make (host.slot dir name)
            ⟨.file, (world.inodes dir).device, [], host.freshMode⟩)
  | .readWrite =>
      match world.look (host.slot dir name) with
      | none => (.error .missing, world)
      | some found =>
          match found.inode.kind with
          | .file => (.ok found.ino, world)
          | .directory => (.error .aDirectory, world)
          | .symlink => (.error .looped, world)
  | .read =>
      match world.look (host.slot dir name) with
      | none => (.error .missing, world)
      | some found =>
          match found.inode.kind with
          | .symlink => (.error .looped, world)
          | _ => (.ok found.ino, world)

def execRename (world : World) (source destination : Slot) : Except IoError Unit × World :=
  match world.look source with
  | none => (.error .missing, world)
  | some moved =>
      if moved.inode.kind = .directory then (.error .aDirectory, world)
      else if moved.inode.device ≠ (world.inodes destination.dir).device then
        (.error .crossesDevices, world)
      else
        match world.look destination with
        | none => (.ok (), world.move source destination moved.ino)
        | some there =>
            if there.inode.kind = .directory then (.error .aDirectory, world)
            else if there.ino = moved.ino then (.ok (), world)
            else (.ok (), world.move source destination moved.ino)

def execHardLink (world : World) (source destination : Slot) : Except IoError Unit × World :=
  match world.look source with
  | none => (.error .missing, world)
  | some linked =>
      if linked.inode.kind = .directory then (.error .aDirectory, world)
      else if linked.inode.device ≠ (world.inodes destination.dir).device then
        (.error .crossesDevices, world)
      else
        match world.look destination with
        | some _ => (.error .occupied, world)
        | none => (.ok (), world.link destination linked.ino)

/-- What a call does when it does not fail. -/
def exec (host : Host) (world : World) : {τ : Type} → FsCall τ → Except IoError τ × World
  | _, .cloneHandle _ => (.ok (), world)
  | _, .dirMetadata dir => (.ok (world.seen dir).metadata, world)
  | _, .symlinkMetadata dir name =>
      match world.look (host.slot dir name) with
      | none => (.error .missing, world)
      | some found => (.ok found.metadata, world)
  | _, .openDir dir name =>
      match world.look (host.slot dir name) with
      | none => (.error .missing, world)
      | some found =>
          match found.inode.kind with
          | .directory => (.ok found.ino, world)
          | .file => (.error .notADirectory, world)
          | .symlink => (.error .looped, world)
  | _, .createDir dir name =>
      match world.look (host.slot dir name) with
      | some _ => (.error .occupied, world)
      | none =>
          (.ok (), world.make (host.slot dir name)
            ⟨.directory, (world.inodes dir).device, [], host.freshMode⟩)
  | _, .openFile dir name mode => execOpen host world dir name mode
  | _, .metadata file => (.ok (world.seen file).metadata, world)
  | _, .read file limit =>
      if (world.inodes file).kind = .directory then (.error .aDirectory, world)
      else (.ok ((world.inodes file).bytes.take limit), world)
  | _, .write file bytes => (.ok (), world.append file bytes)
  | _, .setPermissions file mode => (.ok (), world.chmod file mode)
  | _, .setLength file length => (.ok (), world.resize file length)
  | _, .syncFile _ => (.ok (), world)
  | _, .syncDir _ => (.ok (), world)
  | _, .rename dir name toDir toName =>
      execRename world (host.slot dir name) (host.slot toDir toName)
  | _, .hardLink dir name toDir toName =>
      execHardLink world (host.slot dir name) (host.slot toDir toName)
  | _, .removeFile dir name =>
      match world.look (host.slot dir name) with
      | none => (.error .missing, world)
      | some found =>
          if found.inode.kind = .directory then (.error .aDirectory, world)
          else (.ok (), world.unlink (host.slot dir name))
  | _, .entries dir =>
      (.ok ((world.table.entries.filter fun entry => entry.1.dir = dir).map fun entry =>
        entry.1.name), world)
  | _, .tryLock file =>
      if file ∈ world.locks then (.ok false, world)
      else (.ok true, { world with locks := file :: world.locks })
  | _, .random count =>
      (.ok ((world.entropy.headD [] ++ List.replicate count 0).take count),
        { world with entropy := world.entropy.tail })

/-- What a crash inside a call may leave: a write may get any way through. -/
def torn (world left : World) : {τ : Type} → FsCall τ → Prop
  | _, .write file bytes => ∃ count, left = world.append file (bytes.take count)
  | _, _ => False

/-- Whether the entry a call is about is there. A call that is about an open
handle finds it there always. -/
def present (host : Host) (world : World) : {τ : Type} → FsCall τ → Prop
  | _, .symlinkMetadata dir name => (world.look (host.slot dir name)).isSome
  | _, .openDir dir name => (world.look (host.slot dir name)).isSome
  | _, .openFile dir name .read => (world.look (host.slot dir name)).isSome
  | _, .openFile dir name .readWrite => (world.look (host.slot dir name)).isSome
  | _, .rename dir name _ _ => (world.look (host.slot dir name)).isSome
  | _, .hardLink dir name _ _ => (world.look (host.slot dir name)).isSome
  | _, .removeFile dir name => (world.look (host.slot dir name)).isSome
  | _, _ => True

def isRemoval : {τ : Type} → FsCall τ → Prop
  | _, .removeFile _ _ => True
  | _, _ => False

end FsCall

/-- What may go wrong in a run: calls may fail, a failing removal may deny that
the entry exists, and a journal may refuse a record for its size. -/
structure Weather where
  fails : Prop
  denies : Prop
  refuses : Prop

namespace Weather

def calm : Weather := ⟨False, False, True⟩

def stormy : Weather := ⟨True, False, True⟩

end Weather

namespace FsCall

/-- A failing call answers an error, without its effect, with it, or with the part of it
a crash could leave; a failed attempt to lock leaves no lock. It never says that an entry
is missing which is still there, unless it is a removal under a weather that denies. -/
def Fails (host : Host) (weather : Weather) {τ : Type} (call : FsCall τ) (start : World)
    (answer : Except IoError τ) (finish : World) : Prop :=
  weather.fails ∧ ∃ error, answer = .error error ∧
    (finish = start ∨ (finish = (call.exec host start).2 ∧ finish.locks = start.locks) ∨
      call.torn start finish) ∧
    (error.kind = .notFound →
      ¬ call.present host finish ∨ (weather.denies ∧ call.isRemoval))

end FsCall

/-- The world that answers calls without fail. -/
def fsKernel (host : Host) : Kernel FsOp World where
  exec := fun op world => match op with
    | .io call => call.exec host world
    | .unlock file => ((), { world with locks := world.locks.filter (· ≠ file) })
    | .refuseAppend => ((), world)

def fsMachine (host : Host) (weather : Weather) : Machine FsOp World where
  step := fun op start answer finish => match op with
    | .io call =>
        call.exec host start = (answer, finish) ∨ call.Fails host weather start answer finish
    | .unlock file =>
        finish = { start with locks := start.locks.filter (· ≠ file) }
    | .refuseAppend => weather.refuses ∧ finish = start
  torn := fun op start left => match op with
    | .io call => call.torn start left
    | .unlock _ => False
    | .refuseAppend => left = start

/-- Whatever may fail, nothing need fail. -/
theorem step_exec {host : Host} {weather : Weather} (refuses : weather.refuses) {ρ : Type}
    (op : FsOp ρ) (start : World) :
    (fsMachine host weather).step op start ((fsKernel host).exec op start).1
      ((fsKernel host).exec op start).2 := by
  cases op with
  | io call => exact .inl rfl
  | unlock file => rfl
  | refuseAppend => exact ⟨refuses, rfl⟩

theorem returns_run {host : Host} {weather : Weather} (refuses : weather.refuses) {α : Type}
    (program : Task FsOp α) (start : World) :
    program.Returns (fsMachine host weather) start (program.run (fsKernel host) start).1
      (program.run (fsKernel host) start).2 :=
  Task.returns_run_of (step_exec refuses) program start

abbrev Io := ExceptT IoError (Task FsOp)

def perform {τ : Type} (call : FsCall τ) : Io τ :=
  ExceptT.mk (Task.perform (.io call))

end Worktree
