import Mathlib.Tactic

/-! Files with hard links: names lead to numbered files, and several names may lead to
the same one. -/

namespace FastcgiContainer

structure Disk (Name Content : Type) where
  directory : Name → Option Nat
  files : List Content

namespace Disk

variable {Name Content : Type} [DecidableEq Name]

def blank : Disk Name Content := ⟨fun _ => none, []⟩

def content (disk : Disk Name Content) (name : Name) : Option Content :=
  (disk.directory name).bind (fun file => disk.files[file]?)

/-- Opens a file, which is made with the given content if there is none. -/
def openFile (disk : Disk Name Content) (name : Name) (fresh : Content) :
    Disk Name Content × Nat :=
  match disk.directory name with
  | some file => (disk, file)
  | none =>
      (⟨Function.update disk.directory name (some disk.files.length), disk.files ++ [fresh]⟩,
        disk.files.length)

def writeFile (disk : Disk Name Content) (file : Nat) (written : Content) : Disk Name Content :=
  { disk with files := disk.files.set file written }

/-- A second name for a file; it must not be taken. -/
def link (disk : Disk Name Content) (old new : Name) : Option (Disk Name Content) :=
  match disk.directory old, disk.directory new with
  | some file, none => some { disk with directory := Function.update disk.directory new (some file) }
  | _, _ => none

def unlink (disk : Disk Name Content) (name : Name) : Disk Name Content :=
  { disk with directory := Function.update disk.directory name none }

def Sound (disk : Disk Name Content) : Prop :=
  ∀ name file, disk.directory name = some file → file < disk.files.length

omit [DecidableEq Name] in
theorem sound_blank : Sound (blank : Disk Name Content) := by
  intro name file found
  cases found

omit [DecidableEq Name] in
theorem content_eq_none (disk : Disk Name Content) (sound : disk.Sound) (name : Name) :
    disk.content name = none ↔ disk.directory name = none := by
  unfold content
  cases found : disk.directory name with
  | none => simp
  | some file =>
      have inside := sound name file found
      simp [inside]

theorem sound_openFile (disk : Disk Name Content) (sound : disk.Sound) (name : Name)
    (fresh : Content) : (disk.openFile name fresh).1.Sound := by
  unfold openFile
  split
  · exact sound
  · intro other file found
    by_cases same : other = name
    · subst same
      simp only [Function.update_self, Option.some.injEq] at found
      simp [← found]
    · simp only [Function.update_of_ne same] at found
      have inside := sound other file found
      simp only [List.length_append]
      omega

omit [DecidableEq Name] in
theorem sound_writeFile (disk : Disk Name Content) (sound : disk.Sound) (file : Nat)
    (written : Content) : (disk.writeFile file written).Sound := by
  intro name other found
  simp only [writeFile, List.length_set]
  exact sound name other found

theorem sound_unlink (disk : Disk Name Content) (sound : disk.Sound) (name : Name) :
    (disk.unlink name).Sound := by
  intro other file found
  by_cases same : other = name
  · subst same
    simp [unlink] at found
  · simp only [unlink, Function.update_of_ne same] at found
    exact sound other file found

theorem sound_link (disk next : Disk Name Content) (sound : disk.Sound) (old new : Name)
    (linked : disk.link old new = some next) : next.Sound := by
  unfold link at linked
  split at linked
  · next file found free =>
      cases linked
      intro other number present
      by_cases same : other = new
      · subst same
        simp only [Function.update_self, Option.some.injEq] at present
        rw [← present]
        exact sound old file found
      · simp only [Function.update_of_ne same] at present
        exact sound other number present
  · cases linked

theorem openFile_known (disk : Disk Name Content) (name : Name) (fresh : Content)
    (taken : (disk.directory name).isSome = true) : (disk.openFile name fresh).1 = disk := by
  obtain ⟨file, found⟩ := Option.isSome_iff_exists.mp taken
  simp [openFile, found]

theorem content_openFile (disk : Disk Name Content) (sound : disk.Sound) (name : Name)
    (fresh : Content) (free : disk.directory name = none) (query : Name) :
    (disk.openFile name fresh).1.content query =
      if query = name then some fresh else disk.content query := by
  unfold content
  simp only [openFile, free]
  by_cases same : query = name
  · subst same
    simp
  · simp only [Function.update_of_ne same, if_neg same]
    cases found : disk.directory query with
    | none => rfl
    | some file => simp [List.getElem?_append_left (sound query file found)]

theorem content_create (disk : Disk Name Content) (sound : disk.Sound) (name : Name)
    (fresh written : Content) (free : disk.directory name = none) (query : Name) :
    ((disk.openFile name fresh).1.writeFile (disk.openFile name fresh).2 written).content query =
      if query = name then some written else disk.content query := by
  have opened := disk.content_openFile sound name written free query
  rw [← opened]
  simp [content, openFile, free, writeFile]

theorem content_link (disk next : Disk Name Content) (old new : Name)
    (linked : disk.link old new = some next) (query : Name) :
    next.content query = if query = new then disk.content old else disk.content query := by
  unfold link at linked
  split at linked
  · next file found free =>
      cases linked
      unfold content
      by_cases same : query = new
      · subst same
        simp [found]
      · simp [same]
  · cases linked

theorem content_unlink (disk : Disk Name Content) (name query : Name) :
    (disk.unlink name).content query = if query = name then none else disk.content query := by
  unfold content unlink
  by_cases same : query = name
  · subst same
    simp
  · simp [same]

end Disk

end FastcgiContainer
