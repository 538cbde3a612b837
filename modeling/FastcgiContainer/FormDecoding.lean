import FastcgiContainer.StringUtils

/-! Decoding a URL-encoded body chunk by chunk, against decoding it as a whole.
The two agree where no chunk ends inside of an escape. -/

namespace FastcgiContainer.StringUtils

open Word (Bytes)
open DataBufferImpl (cuts pageFile pageFile_inv pageFile_boundary)

structure Escape where
  pos : Nat
  high : UInt8
  low : UInt8
  deriving DecidableEq, Repr

def escapes (pos : Nat) : Bytes → List Escape
  | [] => []
  | symbol :: high :: low :: tail =>
      if symbol = 37 then ⟨pos, high, low⟩ :: escapes (pos + 3) tail
      else escapes (pos + 1) (high :: low :: tail)
  | _ :: rest => escapes (pos + 1) rest

/-- No escape reaches beyond the segment it starts in. -/
def Whole (boundary : Nat → Nat) (pos : Nat) (text : Bytes) : Prop :=
  ∀ escape ∈ escapes pos text, escape.pos + 2 < boundary escape.pos

def Plain (pos : Nat) (text : Bytes) : Prop :=
  ∀ escape ∈ escapes pos text, escape.high ≠ 37 ∧ escape.low ≠ 37

instance (boundary : Nat → Nat) (pos : Nat) (text : Bytes) : Decidable (Whole boundary pos text) :=
  inferInstanceAs (Decidable (∀ escape ∈ escapes pos text, escape.pos + 2 < boundary escape.pos))

theorem head_plain (symbol : UInt8) (rest : Bytes) (plain : symbol ≠ 37 ∨ rest.length < 2) :
    urldecode (symbol :: rest) = plainSymbol symbol :: urldecode rest ∧
      ∀ pos, escapes pos (symbol :: rest) = escapes (pos + 1) rest := by
  match rest with
  | [] => exact ⟨rfl, fun _ => rfl⟩
  | [_] => exact ⟨rfl, fun _ => rfl⟩
  | high :: low :: tail =>
      have other : symbol ≠ 37 := by
        rcases plain with other | short
        · exact other
        · simp at short
      exact ⟨by simp only [urldecode, if_neg other], fun pos => by simp only [escapes, if_neg other]⟩

theorem head_escape (high low : UInt8) (tail : Bytes) :
    urldecode (37 :: high :: low :: tail) = (hexValue high * 16 + hexValue low) :: urldecode tail ∧
      ∀ pos, escapes pos (37 :: high :: low :: tail) = ⟨pos, high, low⟩ :: escapes (pos + 3) tail :=
  ⟨by simp only [urldecode, if_true], fun pos => by simp only [escapes, if_true]⟩

theorem head_cases (symbol : UInt8) (rest : Bytes) :
    (∃ high low tail, symbol = 37 ∧ rest = high :: low :: tail) ∨ symbol ≠ 37 ∨ rest.length < 2 := by
  by_cases percent : symbol = 37
  · match rest with
    | [] => exact Or.inr (Or.inr (by simp))
    | [_] => exact Or.inr (Or.inr (by simp))
    | high :: low :: tail => exact Or.inl ⟨high, low, tail, percent, rfl⟩
  · exact Or.inr (Or.inl percent)

theorem escape_inside (pos : Nat) (text : Bytes) (escape : Escape)
    (member : escape ∈ escapes pos text) :
    pos ≤ escape.pos ∧ escape.pos + 2 < pos + text.length := by
  induction length : text.length using Nat.strong_induction_on generalizing text pos with
  | _ size ih =>
      match text with
      | [] => simp [escapes] at member
      | symbol :: rest =>
          rcases head_cases symbol rest with ⟨high, low, tail, rfl, rfl⟩ | plain
          · rw [(head_escape high low tail).2] at member
            simp only [List.length_cons] at length
            rcases List.mem_cons.mp member with rfl | later
            · simp only
              omega
            · have bounds := ih tail.length (by omega) (pos + 3) tail later rfl
              omega
          · rw [(head_plain symbol rest plain).2] at member
            simp only [List.length_cons] at length
            have bounds := ih rest.length (by omega) (pos + 1) rest member rfl
            omega

def NotCut (pos : Nat) (front back : Bytes) : Prop :=
  ∀ escape ∈ escapes pos (front ++ back), escape.pos < pos + front.length →
    escape.pos + 2 < pos + front.length

theorem urldecode_append (pos : Nat) (front back : Bytes) (notCut : NotCut pos front back) :
    urldecode (front ++ back) = urldecode front ++ urldecode back ∧
      escapes pos (front ++ back) = escapes pos front ++ escapes (pos + front.length) back := by
  induction length : front.length using Nat.strong_induction_on generalizing front pos with
  | _ size ih =>
      subst length
      match front with
      | [] => simp [urldecode, escapes]
      | symbol :: rest =>
          rw [List.cons_append]
          unfold NotCut at notCut
          rw [List.cons_append] at notCut
          rcases head_cases symbol (rest ++ back) with ⟨high, low, tail, rfl, joined⟩ | plain
          · -- the escape ends inside of the front part, because the seam does not cut it
            have far : 2 ≤ rest.length := by
              have bound := notCut ⟨pos, high, low⟩ (by
                rw [joined, (head_escape high low tail).2]
                simp) (by simp)
              simp only [List.length_cons] at bound
              omega
            obtain ⟨first, second, others, rfl⟩ : ∃ first second others,
                rest = first :: second :: others := by
              match rest with
              | first :: second :: others => exact ⟨first, second, others, rfl⟩
            simp only [List.cons_append, List.cons.injEq] at joined
            obtain ⟨rfl, rfl, rfl⟩ := joined
            simp only [List.cons_append, (head_escape _ _ _).2, List.mem_cons, forall_eq_or_imp,
              List.length_cons] at notCut
            obtain ⟨decoded, scanned⟩ := ih others.length (by simp; omega) (pos + 3) others (by
              intro escape member before
              have bound := notCut.2 escape member (by omega)
              omega) rfl
            simp only [List.cons_append, (head_escape _ _ _).1, (head_escape _ _ _).2, decoded,
              scanned, List.length_cons]
            refine ⟨trivial, ?_⟩
            rw [show pos + 3 + others.length = pos + (others.length + 1 + 1 + 1) by omega]
          · have alone : symbol ≠ 37 ∨ rest.length < 2 := by
              rcases plain with other | short
              · exact Or.inl other
              · refine Or.inr ?_
                rw [List.length_append] at short
                omega
            obtain ⟨wholeDecoded, wholeScanned⟩ := head_plain symbol (rest ++ back) plain
            obtain ⟨frontDecoded, frontScanned⟩ := head_plain symbol rest alone
            rw [wholeScanned] at notCut
            obtain ⟨decoded, scanned⟩ := ih rest.length (by simp) (pos + 1) rest (by
              intro escape member before
              have bound := notCut escape member (by rw [List.length_cons]; omega)
              rw [List.length_cons] at bound
              omega) rfl
            simp only [wholeDecoded, wholeScanned, frontDecoded, frontScanned, decoded, scanned,
              List.cons_append, List.length_cons]
            refine ⟨trivial, ?_⟩
            rw [show pos + 1 + rest.length = pos + (rest.length + 1) by omega]

theorem urldecode_cut_length (pos : Nat) (front back : Bytes) (plain : Plain pos (front ++ back)) :
    Plain (pos + front.length) back ∧
      (NotCut pos front back ∨
        (urldecode front).length + (urldecode back).length =
          (urldecode (front ++ back)).length + 2) := by
  induction length : front.length using Nat.strong_induction_on generalizing front pos with
  | _ size ih =>
      subst length
      match front with
      | [] => exact ⟨plain, Or.inl (fun escape member before => by
          have bounds := escape_inside pos _ escape member
          simp only [List.length_nil] at before
          omega)⟩
      | symbol :: rest =>
          unfold Plain at plain
          simp only [List.cons_append, NotCut] at plain ⊢
          rcases head_cases symbol (rest ++ back) with ⟨high, low, tail, rfl, joined⟩ | alone
          · simp only [joined, (head_escape high low tail).1, (head_escape high low tail).2,
              List.mem_cons, forall_eq_or_imp, List.length_cons] at plain ⊢
            obtain ⟨⟨highPlain, lowPlain⟩, plain⟩ := plain
            match rest with
            | [] =>
                obtain rfl : back = high :: low :: tail := joined
                obtain ⟨first, firstScan⟩ := head_plain high (low :: tail) (Or.inl highPlain)
                obtain ⟨second, secondScan⟩ := head_plain low tail (Or.inl lowPlain)
                refine ⟨?_, Or.inr ?_⟩
                · simpa only [Plain, firstScan, secondScan, List.length_nil] using plain
                · rw [first, second]
                  simp [urldecode]
                  omega
            | [other] =>
                simp only [List.cons_append, List.nil_append, List.cons.injEq] at joined
                obtain ⟨rfl, rfl⟩ := joined
                obtain ⟨second, secondScan⟩ := head_plain low tail (Or.inl lowPlain)
                refine ⟨?_, Or.inr ?_⟩
                · simpa only [Plain, secondScan, List.length_singleton] using plain
                · rw [second]
                  simp [urldecode]
                  omega
            | first :: second :: others =>
                simp only [List.cons_append, List.cons.injEq] at joined
                obtain ⟨rfl, rfl, rfl⟩ := joined
                obtain ⟨kept, seam⟩ := ih others.length (by simp; omega) (pos + 3) others plain rfl
                simp only [(head_escape _ _ _).1, List.length_cons]
                have shift : pos + (others.length + 1 + 1 + 1) = pos + 3 + others.length := by omega
                rw [shift]
                refine ⟨kept, ?_⟩
                rcases seam with notCut | longer
                · refine Or.inl ⟨fun _ => by omega, ?_⟩
                  exact notCut
                · refine Or.inr ?_
                  omega
          · have lone : symbol ≠ 37 ∨ rest.length < 2 := by
              rcases alone with other | short
              · exact Or.inl other
              · refine Or.inr ?_
                rw [List.length_append] at short
                omega
            obtain ⟨wholeDecoded, wholeScanned⟩ := head_plain symbol (rest ++ back) alone
            obtain ⟨frontDecoded, frontScanned⟩ := head_plain symbol rest lone
            rw [wholeScanned] at plain ⊢
            obtain ⟨kept, seam⟩ := ih rest.length (by simp) (pos + 1) rest plain rfl
            have shift : pos + (rest.length + 1) = pos + 1 + rest.length := by omega
            simp only [wholeDecoded, frontDecoded, List.length_cons, shift]
            refine ⟨kept, ?_⟩
            rcases seam with notCut | longer
            · exact Or.inl notCut
            · refine Or.inr ?_
              omega

/-- Decoding a text piece by piece, the pieces ending at segment boundaries. -/
def decodePieces (boundary : Nat → Nat) : Nat → Nat → Bytes → Bytes
  | 0, _, _ => []
  | fuel + 1, pos, text =>
      if text.isEmpty then []
      else
        let front := text.take (boundary pos - pos)
        urldecode front ++ decodePieces boundary fuel (pos + front.length)
          (text.drop (boundary pos - pos))

section Pieces

variable (storage : DataBufferImpl) (inv : storage.Inv)

include inv

theorem piece_step (pos : Nat) (text : Bytes) (inside : pos + text.length ≤ storage.bytes.length)
    (filled : text ≠ []) :
    ∃ front back, text = front ++ back ∧ front = text.take (storage.boundary pos - pos) ∧
      back = text.drop (storage.boundary pos - pos) ∧ 0 < front.length ∧
      ∀ escape ∈ escapes pos text, escape.pos < pos + front.length →
        (escape.pos + 2 < storage.boundary escape.pos ↔ escape.pos + 2 < pos + front.length) := by
  have positive := List.length_pos_of_ne_nil filled
  have beyond := storage.boundary_gt inv pos (by omega)
  refine ⟨_, _, (List.take_append_drop (storage.boundary pos - pos) text).symm, rfl, rfl, ?_, ?_⟩
  · rw [List.length_take]
    omega
  · intro escape member before
    have bounds := escape_inside pos text escape member
    rw [List.length_take] at before ⊢
    rw [storage.boundary_steady inv pos escape.pos bounds.1 (by omega)]
    omega

theorem decodePieces_whole (fuel pos : Nat) (text : Bytes) (enough : text.length ≤ fuel)
    (inside : pos + text.length ≤ storage.bytes.length) (whole : Whole storage.boundary pos text) :
    decodePieces storage.boundary fuel pos text = urldecode text := by
  induction fuel generalizing pos text with
  | zero =>
      obtain rfl : text = [] := List.eq_nil_of_length_eq_zero (by omega)
      rfl
  | succ fuel ih =>
      by_cases filled : text = []
      · subst filled
        rfl
      · obtain ⟨front, back, joined, frontEq, backEq, positive, seam⟩ :=
          piece_step storage inv pos text inside filled
        rw [decodePieces, if_neg (by simpa using filled)]
        simp only [← frontEq, ← backEq]
        have length : text.length = front.length + back.length := by rw [joined, List.length_append]
        have notCut : NotCut pos front back := by
          intro escape member before
          rw [← joined] at member
          exact (seam escape member before).mp (whole escape member)
        obtain ⟨decoded, scanned⟩ := urldecode_append pos front back notCut
        have rest : Whole storage.boundary (pos + front.length) back := by
          intro escape member
          refine whole escape ?_
          rw [joined, scanned]
          exact List.mem_append_right _ member
        rw [ih (pos + front.length) back (by omega) (by omega) rest, joined, decoded]

theorem decodePieces_length (fuel pos : Nat) (text : Bytes) (enough : text.length ≤ fuel)
    (inside : pos + text.length ≤ storage.bytes.length) (plain : Plain pos text) :
    (urldecode text).length ≤ (decodePieces storage.boundary fuel pos text).length ∧
      ((decodePieces storage.boundary fuel pos text).length = (urldecode text).length →
        Whole storage.boundary pos text) := by
  induction fuel generalizing pos text with
  | zero =>
      obtain rfl : text = [] := List.eq_nil_of_length_eq_zero (by omega)
      exact ⟨le_refl _, fun _ escape member => by simp [escapes] at member⟩
  | succ fuel ih =>
      by_cases filled : text = []
      · subst filled
        exact ⟨le_refl _, fun _ escape member => by simp [escapes] at member⟩
      · obtain ⟨front, back, joined, frontEq, backEq, positive, seam⟩ :=
          piece_step storage inv pos text inside filled
        rw [decodePieces, if_neg (by simpa using filled)]
        simp only [← frontEq, ← backEq, List.length_append]
        have length : text.length = front.length + back.length := by rw [joined, List.length_append]
        rw [joined] at plain seam ⊢
        obtain ⟨rest, cut⟩ := urldecode_cut_length pos front back plain
        obtain ⟨atLeast, equal⟩ := ih (pos + front.length) back (by omega) (by omega) rest
        rcases cut with notCut | longer
        · obtain ⟨decoded, scanned⟩ := urldecode_append pos front back notCut
          rw [decoded, List.length_append]
          refine ⟨by omega, fun same => ?_⟩
          intro escape member
          rw [scanned] at member
          rcases List.mem_append.mp member with early | late
          · have bounds := escape_inside pos front escape early
            exact (seam escape (by rw [scanned]; exact member) (by omega)).mpr (by omega)
          · exact equal (by omega) escape late
        · exact ⟨by omega, fun same => by omega⟩

theorem decodePieces_iff (pos : Nat) (text : Bytes)
    (inside : pos + text.length ≤ storage.bytes.length) (plain : Plain pos text) :
    decodePieces storage.boundary text.length pos text = urldecode text ↔
      Whole storage.boundary pos text := by
  constructor
  · intro same
    exact (decodePieces_length storage inv _ pos text (le_refl _) inside plain).2 (by rw [same])
  · exact decodePieces_whole storage inv _ pos text (le_refl _) inside

end Pieces

theorem cuts_decoded (boundary : Nat → Nat) (bytes : Bytes) (last : Nat)
    (inside : last ≤ bytes.length) (forward : ∀ pos < last, pos < boundary pos)
    (fuel first : Nat) (order : first ≤ last) :
    (cuts boundary fuel first last).flatMap
        (fun piece => urldecode (Range.slice bytes piece.1 (piece.1 + piece.2))) =
      decodePieces boundary fuel first (Range.slice bytes first last) := by
  induction fuel generalizing first with
  | zero => rfl
  | succ fuel ih =>
      have length := Range.slice_length_of_le bytes first last inside
      by_cases filled : first < last
      · have beyond := forward first filled
        have full : ¬ (Range.slice bytes first last).isEmpty = true := by
          rw [List.isEmpty_iff]
          intro none
          rw [none] at length
          simp only [List.length_nil] at length
          omega
        have front : (Range.slice bytes first last).take (boundary first - first) =
            Range.slice bytes first (min (boundary first) last) := by
          by_cases near : boundary first ≤ last
          · rw [Range.slice_take _ _ _ _ (by omega)]
            congr 1
            omega
          · rw [List.take_of_length_le (by omega), Nat.min_eq_right (by omega)]
        have back : (Range.slice bytes first last).drop (boundary first - first) =
            Range.slice bytes (min (boundary first) last) last := by
          by_cases near : boundary first ≤ last
          · rw [Range.slice_drop, Nat.min_eq_left near, Nat.add_sub_cancel' (le_of_lt beyond)]
          · rw [List.drop_eq_nil_of_le (by omega), Nat.min_eq_right (by omega), Range.slice_empty]
        have next : first + (min (boundary first) last - first) = min (boundary first) last := by
          omega
        have width : (Range.slice bytes first (min (boundary first) last)).length =
            min (boundary first) last - first := Range.slice_length_of_le _ _ _ (by omega)
        have rest := ih (min (boundary first) last) (by omega)
        simp only [cuts, filled, if_true, List.flatMap_cons, decodePieces, if_neg full, front, back,
          next, width, rest]
      · obtain rfl : first = last := by omega
        simp [cuts, decodePieces]

theorem urldecodeBuffer_eq {heap : Heap} {buffer : DataBuffer} {ref : Nat}
    {storage : DataBufferImpl} (shown : buffer.Shows heap ref storage) :
    urldecodeBuffer buffer heap = .ok (decodePieces storage.boundary (buffer.text storage).length
      buffer.beginIndex (buffer.text storage)) := by
  have inside := shown.inside
  have length := shown.text_length
  rw [shown.size_eq] at length
  have decoded := cuts_decoded storage.boundary storage.bytes buffer.endIndex inside
    (fun pos before => storage.boundary_gt shown.inv pos (by omega))
    (buffer.endIndex - buffer.beginIndex) buffer.beginIndex shown.order
  simp only [urldecodeBuffer, (DataBuffer.chunks_spec shown).1, ok_bind, List.flatMap_map, decoded,
    length]
  rfl

structure Field where
  keyPos : Nat
  key : Bytes
  valuePos : Nat
  value : Bytes
  deriving DecidableEq, Repr

def fieldsLoop : Nat → Nat → Bytes → List Field
  | 0, _, _ => []
  | fuel + 1, pos, text =>
      if text.isEmpty then []
      else
        let (_, head, tail) := Range.splitChar text 38
        let (_, key, value) := Range.splitChar head 61
        let rest := fieldsLoop fuel (pos + head.length + 1) tail
        if key.isEmpty then rest else ⟨pos, key, pos + key.length + 1, value⟩ :: rest

def fields (pos : Nat) (text : Bytes) : List Field := fieldsLoop text.length pos text

def Field.decoded (field : Field) : NamedValue := (urldecode field.key, urldecode field.value)

def Field.pieced (boundary : Nat → Nat) (field : Field) : NamedValue :=
  (decodePieces boundary field.key.length field.keyPos field.key,
    decodePieces boundary field.value.length field.valuePos field.value)

def Field.Whole (boundary : Nat → Nat) (field : Field) : Prop :=
  StringUtils.Whole boundary field.keyPos field.key ∧
    StringUtils.Whole boundary field.valuePos field.value

def Field.Plain (field : Field) : Prop :=
  StringUtils.Plain field.keyPos field.key ∧ StringUtils.Plain field.valuePos field.value

instance (boundary : Nat → Nat) (field : Field) : Decidable (field.Whole boundary) :=
  inferInstanceAs (Decidable (_ ∧ _))

theorem parseLoop_eq (fuel pos : Nat) (text : Bytes) (v : List NamedValue) :
    parseLoop fuel text v = v ++ (fieldsLoop fuel pos text).map Field.decoded := by
  induction fuel generalizing pos text v with
  | zero => simp [parseLoop, fieldsLoop]
  | succ fuel ih =>
      unfold parseLoop fieldsLoop
      split
      · simp
      · dsimp only
        rw [ih (pos + (Range.splitChar text 38).2.1.length + 1)]
        split
        · rfl
        · simp [Field.decoded]

theorem parse_eq (pos : Nat) (text : Bytes) (v : List NamedValue) :
    parse text v = v ++ (fields pos text).map Field.decoded :=
  parseLoop_eq text.length pos text v

theorem fieldsLoop_nil (fuel pos : Nat) : fieldsLoop fuel pos [] = [] := by
  cases fuel <;> rfl

theorem parseBufferLoop_eq (fuel : Nat) (heap : Heap) (buffer : DataBuffer) (ref : Nat)
    (storage : DataBufferImpl) (shown : buffer.Shows heap ref storage) (v : List NamedValue)
    (enough : (buffer.text storage).length ≤ fuel) :
    parseBufferLoop heap fuel buffer v = .ok (v ++
      (fieldsLoop fuel buffer.beginIndex (buffer.text storage)).map
        (Field.pieced storage.boundary)) := by
  induction fuel generalizing buffer v with
  | zero =>
      have blank := List.eq_nil_of_length_eq_zero (Nat.le_zero.mp enough)
      simp [parseBufferLoop, shown.empty_iff.mpr blank, fieldsLoop]
  | succ fuel ih =>
      by_cases blank : buffer.text storage = []
      · simp [parseBufferLoop, shown.empty_iff.mpr blank, fieldsLoop, blank]
      · have filled : ¬ buffer.empty = true := fun none => blank (shown.empty_iff.mp none)
        obtain ⟨found, head, tail, cut, headShown, tailShown, headText, headBegin, tailRange⟩ :=
          DataBuffer.split_refines shown [38] (by simp)
        obtain ⟨named, key, value, halved, keyShown, valueShown, keyText, keyBegin, valueRange⟩ :=
          DataBuffer.split_refines headShown [61] (by simp)
        have shorter := Range.split_tail_length (buffer.text storage) [38] (by simp) blank
        rw [headText] at shorter
        have rest : ∀ w, parseBufferLoop heap fuel tail w = .ok (w ++ (fieldsLoop fuel
            (buffer.beginIndex + (head.text storage).length + 1) (tail.text storage)).map
            (Field.pieced storage.boundary)) := by
          intro w
          rw [ih tail tailShown w (by simp only at shorter; omega)]
          cases found with
          | false =>
              have none := Range.split_absent (buffer.text storage) [38] (by rw [headText])
              rw [headText] at none
              simp only at none
              rw [none, fieldsLoop_nil, fieldsLoop_nil]
          | true =>
              have start : tail.beginIndex = buffer.beginIndex + (head.text storage).length + 1 := by
                rw [headShown.text_length, headShown.size_eq, (tailRange rfl).1, ← headBegin,
                  Nat.add_sub_cancel' headShown.order]
                rfl
              rw [start]
        have valueDecoded : urldecodeBuffer value heap = .ok (decodePieces storage.boundary
            (value.text storage).length (buffer.beginIndex + (key.text storage).length + 1)
            (value.text storage)) := by
          rw [urldecodeBuffer_eq valueShown]
          cases named with
          | false =>
              have none := Range.split_absent (head.text storage) [61] (by rw [keyText])
              rw [keyText] at none
              simp only at none
              simp [none, decodePieces]
          | true =>
              have start : value.beginIndex = buffer.beginIndex + (key.text storage).length + 1 := by
                rw [keyShown.text_length, keyShown.size_eq, (valueRange rfl).1, ← headBegin,
                  ← keyBegin, Nat.add_sub_cancel' keyShown.order]
                rfl
              rw [start]
        have keyDecoded := urldecodeBuffer_eq keyShown
        rw [keyBegin, headBegin] at keyDecoded
        simp only [parseBufferLoop, if_neg filled, cut, halved, ok_bind, fieldsLoop,
          List.isEmpty_iff, blank, if_false, Range.splitChar_eq_split, headText, keyText]
        by_cases unnamed : key.text storage = []
        · rw [if_pos (keyShown.empty_iff.mpr unnamed), if_pos unnamed, rest]
        · rw [if_neg (fun none => unnamed (keyShown.empty_iff.mp none)), if_neg unnamed, keyDecoded,
            ok_bind, valueDecoded, ok_bind, rest]
          simp [Field.pieced]

theorem parseBuffer_eq {heap : Heap} {buffer : DataBuffer} {ref : Nat} {storage : DataBufferImpl}
    (shown : buffer.Shows heap ref storage) (v : List NamedValue) :
    parseBuffer buffer heap v = .ok (v ++
      (fields buffer.beginIndex (buffer.text storage)).map (Field.pieced storage.boundary)) := by
  have length := shown.text_length
  unfold parseBuffer fields
  rw [parseBufferLoop_eq buffer.size heap buffer ref storage shown v (by omega), length]

theorem fieldsLoop_inside (fuel pos : Nat) (text : Bytes) (field : Field)
    (member : field ∈ fieldsLoop fuel pos text) :
    field.keyPos + field.key.length ≤ pos + text.length ∧
      (field.value = [] ∨ field.valuePos + field.value.length ≤ pos + text.length) := by
  induction fuel generalizing pos text with
  | zero => simp [fieldsLoop] at member
  | succ fuel ih =>
      unfold fieldsLoop at member
      split at member
      · simp at member
      · rcases cut : Range.split text [38] with ⟨found, head, tail⟩
        rcases halved : Range.split head [61] with ⟨named, key, value⟩
        have outer := Range.split_inside text [38] (by simp)
        have inner := Range.split_inside head [61] (by simp)
        simp only [cut, halved, List.length_singleton] at outer inner
        simp only [Range.splitChar_eq_split, cut, halved] at member
        have later : field ∈ fieldsLoop fuel (pos + head.length + 1) tail →
            field.keyPos + field.key.length ≤ pos + text.length ∧
              (field.value = [] ∨ field.valuePos + field.value.length ≤ pos + text.length) := by
          intro rest
          rcases outer.2 with none | room
          · rw [none, fieldsLoop_nil] at rest
            simp at rest
          · have bounds := ih _ _ rest
            exact ⟨by omega, bounds.2.imp id (fun _ => by omega)⟩
        split at member
        · exact later member
        · rcases List.mem_cons.mp member with rfl | rest
          · exact ⟨by simp only; omega, inner.2.imp id (fun room => by simp only; omega)⟩
          · exact later rest

/-- `urldecode` of a buffer gives what `urldecode` of its text gives. -/
def DecodesAlike (heap : Heap) (buffer : DataBuffer) (storage : DataBufferImpl) : Prop :=
  urldecodeBuffer buffer heap = .ok (urldecode (buffer.text storage))

/-- `parse` of a buffer appends what `parse` of its text appends. -/
def ParsesAlike (heap : Heap) (buffer : DataBuffer) (storage : DataBufferImpl) : Prop :=
  ∀ v, parseBuffer buffer heap v = .ok (parse (buffer.text storage) v)

section Alike

variable {heap : Heap} {buffer : DataBuffer} {ref : Nat} {storage : DataBufferImpl}

theorem decodesAlike_iff (shown : buffer.Shows heap ref storage) :
    DecodesAlike heap buffer storage ↔
      decodePieces storage.boundary (buffer.text storage).length buffer.beginIndex
        (buffer.text storage) = urldecode (buffer.text storage) := by
  rw [DecodesAlike, urldecodeBuffer_eq shown, Except.ok.injEq]

theorem parsesAlike_iff (shown : buffer.Shows heap ref storage) :
    ParsesAlike heap buffer storage ↔ ∀ field ∈ fields buffer.beginIndex (buffer.text storage),
      field.pieced storage.boundary = field.decoded := by
  simp only [ParsesAlike, parseBuffer_eq shown, parse_eq buffer.beginIndex, Except.ok.injEq,
    List.append_cancel_left_eq, forall_const, List.map_inj_left]

theorem Shows.range_inside (shown : buffer.Shows heap ref storage) :
    buffer.beginIndex + (buffer.text storage).length ≤ storage.bytes.length := by
  have order := shown.order
  have inside := shown.inside
  rw [shown.text_length, shown.size_eq]
  omega

theorem decodesAlike_of_whole (shown : buffer.Shows heap ref storage)
    (whole : Whole storage.boundary buffer.beginIndex (buffer.text storage)) :
    DecodesAlike heap buffer storage :=
  (decodesAlike_iff shown).mpr
    (decodePieces_whole storage shown.inv _ _ _ (le_refl _) (Shows.range_inside shown) whole)

theorem field_pieced_whole (shown : buffer.Shows heap ref storage) (field : Field)
    (member : field ∈ fields buffer.beginIndex (buffer.text storage))
    (whole : field.Whole storage.boundary) : field.pieced storage.boundary = field.decoded := by
  have room := Shows.range_inside shown
  obtain ⟨keyInside, valueInside⟩ := fieldsLoop_inside _ _ _ field member
  unfold Field.pieced Field.decoded
  congr 1
  · exact decodePieces_whole storage shown.inv _ _ _ (le_refl _) (by omega) whole.1
  · rcases valueInside with none | inside
    · rw [none]
      rfl
    · exact decodePieces_whole storage shown.inv _ _ _ (le_refl _) (by omega) whole.2

theorem field_pieced_iff (shown : buffer.Shows heap ref storage) (field : Field)
    (member : field ∈ fields buffer.beginIndex (buffer.text storage)) (plain : field.Plain) :
    field.pieced storage.boundary = field.decoded ↔ field.Whole storage.boundary := by
  refine ⟨?_, field_pieced_whole shown field member⟩
  have room := Shows.range_inside shown
  obtain ⟨keyInside, valueInside⟩ := fieldsLoop_inside _ _ _ field member
  intro same
  unfold Field.pieced Field.decoded at same
  obtain ⟨keySame, valueSame⟩ := Prod.mk.inj same
  refine ⟨(decodePieces_iff storage shown.inv _ _ (by omega) plain.1).mp keySame, ?_⟩
  rcases valueInside with none | inside
  · intro escape found
    rw [none] at found
    simp [escapes] at found
  · exact (decodePieces_iff storage shown.inv _ _ (by omega) plain.2).mp valueSame

theorem whole_of_string (content : StringBuffer) (pos : Nat) (text : Bytes)
    (inside : pos + text.length ≤ content.data.length) :
    Whole (DataBufferImpl.string content).boundary pos text := by
  intro escape member
  have bounds := escape_inside pos text escape member
  change escape.pos + 2 < content.data.length
  omega

theorem string_alike (content : StringBuffer) (shown : buffer.Shows heap ref (.string content)) :
    DecodesAlike heap buffer (.string content) ∧ ParsesAlike heap buffer (.string content) := by
  have room := Shows.range_inside shown
  change _ ≤ content.data.length at room
  refine ⟨decodesAlike_of_whole shown (whole_of_string content _ _ room), ?_⟩
  rw [parsesAlike_iff shown]
  intro field member
  obtain ⟨keyInside, valueInside⟩ := fieldsLoop_inside _ _ _ field member
  refine field_pieced_whole shown field member ⟨whole_of_string content _ _ (by omega), ?_⟩
  rcases valueInside with none | inside
  · intro escape found
    rw [none] at found
    simp [escapes] at found
  · exact whole_of_string content _ _ (by omega)

/-- Decoding a buffer agrees with decoding its text where no chunk ends inside of
an escape; where no escape has a percent sign for a digit, it agrees only there. -/
theorem buffer_decodes_as_range (shown : buffer.Shows heap ref storage) :
    (Whole storage.boundary buffer.beginIndex (buffer.text storage) →
      DecodesAlike heap buffer storage) ∧
    (Plain buffer.beginIndex (buffer.text storage) →
      (DecodesAlike heap buffer storage ↔
        Whole storage.boundary buffer.beginIndex (buffer.text storage))) ∧
    ((∀ field ∈ fields buffer.beginIndex (buffer.text storage), field.Whole storage.boundary) →
      ParsesAlike heap buffer storage) ∧
    ((∀ field ∈ fields buffer.beginIndex (buffer.text storage), field.Plain) →
      (ParsesAlike heap buffer storage ↔
        ∀ field ∈ fields buffer.beginIndex (buffer.text storage), field.Whole storage.boundary)) ∧
    (∀ content, storage = .string content →
      DecodesAlike heap buffer storage ∧ ParsesAlike heap buffer storage) := by
  refine ⟨decodesAlike_of_whole shown, ?_, ?_, ?_, ?_⟩
  · intro plain
    rw [decodesAlike_iff shown]
    exact decodePieces_iff storage shown.inv _ _ (Shows.range_inside shown) plain
  · intro whole
    rw [parsesAlike_iff shown]
    exact fun field member => field_pieced_whole shown field member (whole field member)
  · intro plain
    rw [parsesAlike_iff shown]
    exact forall₂_congr fun field member => field_pieced_iff shown field member (plain field member)
  · rintro content rfl
    exact string_alike content shown

end Alike

theorem pageFile_shows (pos : Nat) (text : Bytes) (fits : pos + text.length < Word.base) :
    (⟨some 0, pos, pos + text.length⟩ : DataBuffer).Shows
        [pageFile (List.replicate pos 97 ++ text)] 0 (pageFile (List.replicate pos 97 ++ text)) ∧
      (⟨some 0, pos, pos + text.length⟩ : DataBuffer).text
        (pageFile (List.replicate pos 97 ++ text)) = text := by
  refine ⟨⟨rfl, rfl, pageFile_inv _ (by simpa using fits), by simp, ?_⟩, ?_⟩
  · simp [pageFile, DataBufferImpl.bytes, FileBuffer.bytes]
  · simp [DataBuffer.text, pageFile, DataBufferImpl.bytes, FileBuffer.bytes, Range.slice]

/-- An escape in the last three bytes of a page is decoded from its own chunk. -/
theorem buffer_decodes_as_range_inside_page :
    let storage := pageFile (List.replicate 4093 97 ++ ascii "%41")
    let buffer : DataBuffer := ⟨some 0, 4093, 4096⟩
    buffer.text storage = ascii "%41" ∧ urldecode (ascii "%41") = ascii "A" ∧
      DecodesAlike [storage] buffer storage ∧ ParsesAlike [storage] buffer storage := by
  obtain ⟨shown, same⟩ := pageFile_shows 4093 (ascii "%41") (by decide)
  change DataBuffer.Shows _ ⟨some 0, 4093, 4096⟩ _ _ at shown
  change DataBuffer.text ⟨some 0, 4093, 4096⟩ _ = _ at same
  obtain ⟨decodes, _, parses, _⟩ := buffer_decodes_as_range shown
  rw [same, pageFile_boundary] at decodes parses
  exact ⟨same, by decide, decodes (by decide), parses (by decide)⟩

/-- The percent sign is the last byte of a page: each chunk is decoded by itself. -/
theorem buffer_decodes_cut_escape :
    let storage := pageFile (List.replicate 4095 97 ++ ascii "%41")
    let buffer : DataBuffer := ⟨some 0, 4095, 4098⟩
    buffer.Shows [storage] 0 storage ∧ buffer.text storage = ascii "%41" ∧
      urldecode (ascii "%41") = ascii "A" ∧
      urldecodeBuffer buffer [storage] = .ok (ascii "%41") ∧
      parseBuffer buffer [storage] [] = .ok [(ascii "%41", [])] ∧
      ¬ DecodesAlike [storage] buffer storage ∧ ¬ ParsesAlike [storage] buffer storage := by
  obtain ⟨shown, same⟩ := pageFile_shows 4095 (ascii "%41") (by decide)
  change DataBuffer.Shows _ ⟨some 0, 4095, 4098⟩ _ _ at shown
  change DataBuffer.text ⟨some 0, 4095, 4098⟩ _ = _ at same
  have decoded := urldecodeBuffer_eq shown
  have parsed := parseBuffer_eq shown []
  rw [same, pageFile_boundary] at decoded parsed
  refine ⟨shown, same, by decide, ?_, ?_, ?_, ?_⟩
  · rw [decoded]
    decide +kernel
  · rw [parsed]
    decide +kernel
  · rw [DecodesAlike, decoded, same]
    decide +kernel
  · intro alike
    have wanted := alike []
    rw [parsed, same] at wanted
    revert wanted
    decide +kernel

end FastcgiContainer.StringUtils
