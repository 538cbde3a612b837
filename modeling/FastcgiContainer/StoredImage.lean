import FastcgiContainer.RequestRoundTrip

/-! What a stored image says, byte by byte and whether well formed or not: where
`Request::parse` finds the lengths, the body and the file records, as functions
of the bytes alone. -/

namespace FastcgiContainer.Request

open Word (Bytes)

def bytesAt (text : Bytes) (pos len : Nat) : Bytes := (text.drop pos).take len

def intAt (text : Bytes) (pos : Nat) : Nat := Word.ofBytes (bytesAt text pos 8)

def intEnd (text : Bytes) (pos : Nat) : Nat := pos + (bytesAt text pos 8).length

def stringAt (text : Bytes) (pos : Nat) : Bytes :=
  resized (bytesAt text (intEnd text pos) (intAt text pos)) (intAt text pos)

def stringEnd (text : Bytes) (pos : Nat) : Nat :=
  intEnd text pos + (bytesAt text (intEnd text pos) (intAt text pos)).length

/-- Where a section ends by its own account. -/
def lengthEnd (text : Bytes) (pos : Nat) : Nat := Word.add (intEnd text pos) (intAt text pos)

def pairsEnd (text : Bytes) (posEnd : Nat) : Nat → Nat → Nat
  | 0, pos => pos
  | fuel + 1, pos =>
      if pos < posEnd then pairsEnd text posEnd fuel (stringEnd text (stringEnd text pos)) else pos

def sectionEnd (text : Bytes) (pos : Nat) : Nat :=
  pairsEnd text (lengthEnd text pos) (lengthEnd text pos) (intEnd text pos)

def bodyLengthAt (text : Bytes) : Nat := sectionEnd text (sectionEnd text (sectionEnd text 0))

def bodyStart (text : Bytes) : Nat := intEnd text (bodyLengthAt text)

def bodyLength (text : Bytes) : Nat := intAt text (bodyLengthAt text)

/-- One entry of the files section, its content given relative to the body. -/
structure FileRecord where
  name : Bytes
  remoteName : Bytes
  type : Bytes
  offset : Nat
  length : Nat
  deriving DecidableEq, Repr

def typeAt (text : Bytes) (pos : Nat) : Nat := stringEnd text (stringEnd text pos)

def offsetAt (text : Bytes) (pos : Nat) : Nat := stringEnd text (typeAt text pos)

def recordAt (text : Bytes) (pos : Nat) : FileRecord :=
  ⟨stringAt text pos, stringAt text (stringEnd text pos), stringAt text (typeAt text pos),
    intAt text (offsetAt text pos), intAt text (intEnd text (offsetAt text pos))⟩

def recordEnd (text : Bytes) (pos : Nat) : Nat := intEnd text (intEnd text (offsetAt text pos))

def recordsFrom (text : Bytes) (posEnd : Nat) : Nat → Nat → List FileRecord
  | 0, _ => []
  | fuel + 1, pos =>
      if pos < posEnd then recordAt text pos :: recordsFrom text posEnd fuel (recordEnd text pos) else []

def fileRecords (text : Bytes) : List FileRecord :=
  let pos := lengthEnd text (bodyLengthAt text)
  recordsFrom text (lengthEnd text pos) (lengthEnd text pos) (intEnd text pos)

def FileRecord.range (body : DataBuffer) (record : FileRecord) : DataBuffer :=
  ⟨body.data, Word.add record.offset body.beginIndex,
    Word.add (Word.add record.offset record.length) body.beginIndex⟩

/-- A record that is kept: names are kept as they are first met. -/
def FileRecord.First (records : List FileRecord) (record : FileRecord) : Prop :=
  records.find? (fun other => other.name == record.name) = some record

instance (records : List FileRecord) (record : FileRecord) : Decidable (record.First records) :=
  inferInstanceAs (Decidable (_ = _))

theorem intAt_lt (text : Bytes) (pos : Nat) : intAt text pos < Word.base := by
  have short : (bytesAt text pos 8).length ≤ 8 := by simp [bytesAt]
  have small := Word.ofBytes_lt (bytesAt text pos 8)
  have grown : 256 ^ (bytesAt text pos 8).length ≤ 256 ^ 8 := Nat.pow_le_pow_right (by decide) short
  have base : (256 : Nat) ^ 8 = Word.base := by decide
  unfold intAt
  omega

section Read

variable {heap : Heap} {buffer : DataBuffer} {ref : Nat} {storage : DataBufferImpl}
  (shown : buffer.Shows heap ref storage)

include shown

theorem parseInt_eq (pos : Nat) :
    parseInt buffer heap pos = .ok (intEnd (buffer.text storage) pos, intAt (buffer.text storage) pos) := by
  simp only [parseInt, DataBuffer.read_spec shown, ok_bind, intEnd, intAt, bytesAt]

theorem parseString_eq (pos : Nat) :
    parseString buffer heap pos =
      .ok (stringEnd (buffer.text storage) pos, stringAt (buffer.text storage) pos) := by
  simp only [parseString, parseInt_eq shown, DataBuffer.read_spec shown, ok_bind, stringEnd, stringAt,
    bytesAt]

theorem parseLength_eq (pos : Nat) (what : String) :
    parseLength buffer heap pos what =
      if lengthEnd (buffer.text storage) pos > buffer.size then .error (.runtimeError what)
      else .ok (intEnd (buffer.text storage) pos, lengthEnd (buffer.text storage) pos) := by
  simp only [parseLength, parseInt_eq shown, ok_bind]
  rfl

theorem parseLength_ok {pos start posEnd : Nat} {what : String}
    (done : parseLength buffer heap pos what = .ok (start, posEnd)) :
    start = intEnd (buffer.text storage) pos ∧ posEnd = lengthEnd (buffer.text storage) pos ∧
      posEnd ≤ buffer.size := by
  rw [parseLength_eq shown] at done
  split at done
  · cases done
  · next fits =>
      obtain ⟨rfl, rfl⟩ := Prod.mk.inj (Except.ok.inj done)
      exact ⟨rfl, rfl, by omega⟩

theorem parsePairs_stop {σ : Type} {add : σ → Bytes → Bytes → σ} {posEnd fuel pos stop : Nat}
    {found after : σ} (done : parsePairs buffer heap add posEnd fuel pos found = .ok (stop, after)) :
    stop = pairsEnd (buffer.text storage) posEnd fuel pos := by
  induction fuel generalizing pos found with
  | zero =>
      unfold parsePairs at done
      split at done
      · cases done
      · exact (Prod.mk.inj (Except.ok.inj done)).1.symm
  | succ fuel ih =>
      unfold parsePairs at done
      unfold pairsEnd
      split at done
      · next more =>
          simp only [parseString_eq shown, ok_bind] at done
          rw [if_pos more]
          exact ih done
      · next past =>
          rw [if_neg past]
          exact (Prod.mk.inj (Except.ok.inj done)).1.symm

theorem parseSection_stop {σ : Type} {add : σ → Bytes → Bytes → σ} {what : String} {pos stop : Nat}
    {found after : σ} (done : parseSection buffer heap add what pos found = .ok (stop, after)) :
    stop = sectionEnd (buffer.text storage) pos := by
  unfold parseSection at done
  obtain ⟨⟨start, posEnd⟩, lengths, done⟩ := bind_eq_ok _ _ _ done
  obtain ⟨rfl, rfl, _⟩ := parseLength_ok shown lengths
  exact parsePairs_stop shown done

theorem parseHeaders_ok {request next : Request} {pos stop : Nat}
    (done : parseHeaders request buffer heap pos = .ok (stop, next)) :
    stop = sectionEnd (buffer.text storage) pos ∧ next.body = request.body ∧
      next.files = request.files := by
  obtain ⟨⟨last, headers⟩, read, done⟩ := bind_eq_ok _ _ _ done
  obtain ⟨rfl, rfl⟩ := Prod.mk.inj (Except.ok.inj done)
  exact ⟨parseSection_stop shown read, rfl, rfl⟩

theorem parseCookies_ok {request next : Request} {pos stop : Nat}
    (done : parseCookies request buffer heap pos = .ok (stop, next)) :
    stop = sectionEnd (buffer.text storage) pos ∧ next.body = request.body ∧
      next.files = request.files := by
  obtain ⟨⟨last, cookies⟩, read, done⟩ := bind_eq_ok _ _ _ done
  obtain ⟨rfl, rfl⟩ := Prod.mk.inj (Except.ok.inj done)
  exact ⟨parseSection_stop shown read, rfl, rfl⟩

theorem parseVars_ok {request next : Request} {pos stop : Nat}
    (done : parseVars request buffer heap pos = .ok (stop, next)) :
    stop = sectionEnd (buffer.text storage) pos ∧ next.body = request.body ∧
      next.files = request.files := by
  obtain ⟨⟨last, vars⟩, read, done⟩ := bind_eq_ok _ _ _ done
  obtain ⟨rfl, rfl⟩ := Prod.mk.inj (Except.ok.inj done)
  exact ⟨parseSection_stop shown read, rfl, rfl⟩

theorem parseArgs_ok {request next : Request} {pos stop : Nat}
    (done : parseArgs request buffer heap pos = .ok (stop, next)) :
    stop = sectionEnd (buffer.text storage) pos ∧ next.body = request.body ∧
      next.files = request.files := by
  obtain ⟨⟨last, args⟩, read, done⟩ := bind_eq_ok _ _ _ done
  obtain ⟨rfl, rfl⟩ := Prod.mk.inj (Except.ok.inj done)
  exact ⟨parseSection_stop shown read, rfl, rfl⟩

theorem parseFile_ok {body : DataBuffer} {pos stop : Nat} {name : Bytes} {file : File}
    (done : parseFile body buffer heap pos = .ok (stop, name, file)) :
    stop = recordEnd (buffer.text storage) pos ∧
      name = (recordAt (buffer.text storage) pos).name ∧
      file.data = (recordAt (buffer.text storage) pos).range body := by
  unfold parseFile at done
  simp only [parseString_eq shown, parseInt_eq shown, ok_bind] at done
  obtain ⟨content, viewed, done⟩ := bind_eq_ok _ _ _ done
  obtain ⟨made, created, done⟩ := bind_eq_ok _ _ _ done
  simp only [Except.ok.injEq, Prod.mk.injEq] at done
  obtain ⟨rfl, rfl, rfl⟩ := done
  rw [File.create_data created, DataBuffer.view_ok viewed]
  simp only [recordEnd, recordAt, offsetAt, typeAt, FileRecord.range, and_self]

theorem parseEachFile_find {body : DataBuffer} {posEnd fuel pos stop : Nat}
    {found after : OrderedMap Bytes File stringLess}
    (done : parseEachFile body buffer heap posEnd fuel pos found = .ok (stop, after)) (query : Bytes) :
    (after.find? query).map File.data = ((found.find? query).map File.data).or
      (((recordsFrom (buffer.text storage) posEnd fuel pos).find? (fun record => record.name == query)).map
        (FileRecord.range body)) := by
  induction fuel generalizing pos found with
  | zero =>
      unfold parseEachFile at done
      split at done
      · cases done
      · obtain ⟨_, rfl⟩ := Prod.mk.inj (Except.ok.inj done)
        simp [recordsFrom]
  | succ fuel ih =>
      unfold parseEachFile at done
      unfold recordsFrom
      split at done
      · next more =>
          obtain ⟨⟨next, name, file⟩, read, done⟩ := bind_eq_ok _ _ _ done
          obtain ⟨nextPos, named, content⟩ := parseFile_ok shown read
          rw [nextPos, named] at done
          rw [if_pos more, ih done, find?_insert, List.find?_cons]
          by_cases here : (recordAt (buffer.text storage) pos).name = query
          · have same : ((recordAt (buffer.text storage) pos).name == query) = true := by
              simpa using here
            rw [if_pos here, same]
            cases found.find? query with
            | none => simp [content]
            | some known => simp
          · have differ : ((recordAt (buffer.text storage) pos).name == query) = false := by
              simpa using here
            rw [if_neg here, differ]
      · next past =>
          obtain ⟨_, rfl⟩ := Prod.mk.inj (Except.ok.inj done)
          simp [if_neg past]

theorem parseBody_ok {request next : Request} {pos stop : Nat}
    (done : parseBody request buffer heap pos = .ok (stop, next)) :
    stop = lengthEnd (buffer.text storage) pos ∧ stop ≤ buffer.size ∧
      next.body = ⟨buffer.data, intEnd (buffer.text storage) pos + buffer.beginIndex,
        stop + buffer.beginIndex⟩ ∧ next.files = request.files := by
  unfold parseBody at done
  obtain ⟨⟨start, posEnd⟩, lengths, done⟩ := bind_eq_ok _ _ _ done
  obtain ⟨rfl, rfl, fits⟩ := parseLength_ok shown lengths
  obtain ⟨body, viewed, done⟩ := bind_eq_ok _ _ _ done
  obtain ⟨rfl, rfl⟩ := Prod.mk.inj (Except.ok.inj done)
  exact ⟨rfl, fits, DataBuffer.view_ok viewed, rfl⟩

theorem parseFiles_ok {request next : Request} {pos stop : Nat}
    (done : parseFiles request buffer heap pos = .ok (stop, next)) (query : Bytes) :
    next.body = request.body ∧
    (next.files.find? query).map File.data = ((request.files.find? query).map File.data).or
      (((recordsFrom (buffer.text storage) (lengthEnd (buffer.text storage) pos)
        (lengthEnd (buffer.text storage) pos) (intEnd (buffer.text storage) pos)).find?
          (fun record => record.name == query)).map (FileRecord.range request.body)) := by
  unfold parseFiles at done
  obtain ⟨⟨start, posEnd⟩, lengths, done⟩ := bind_eq_ok _ _ _ done
  obtain ⟨rfl, rfl, _⟩ := parseLength_ok shown lengths
  obtain ⟨⟨last, files⟩, loop, done⟩ := bind_eq_ok _ _ _ done
  obtain ⟨rfl, rfl⟩ := Prod.mk.inj (Except.ok.inj done)
  exact ⟨rfl, parseEachFile_find shown loop query⟩

end Read

end FastcgiContainer.Request
