import FastcgiContainer.Request

/-! The variables of the configuration: `XmlConfig::resolveVariables` replaces the first
reference of a string by the value of its variable, until there is none. -/

namespace FastcgiContainer

open Word (Bytes)

namespace XmlConfig

def letter (symbol : UInt8) : Bool := (65 ≤ symbol && symbol ≤ 90) || (97 ≤ symbol && symbol ≤ 122)

def nameSymbol (symbol : UInt8) : Bool := isalnum symbol || symbol == 45

/-- `[A-Za-z][A-Za-z0-9\-]*` -/
def isName : Bytes → Bool
  | [] => false
  | first :: rest => letter first && rest.all nameSymbol

def reference (name : Bytes) : Bytes := 36 :: 123 :: (name ++ [125])

def matchFront : Bytes → Option (Bytes × Bytes)
  | 36 :: 123 :: text =>
      match text.dropWhile nameSymbol with
      | 125 :: back =>
          if isName (text.takeWhile nameSymbol) then some (text.takeWhile nameSymbol, back) else none
      | _ => none
  | _ => none

/-- `std::regex_search`: the first match, with what stands before it. -/
def regexSearch : Bytes → Option (Bytes × Bytes × Bytes)
  | [] => none
  | symbol :: rest =>
      match matchFront (symbol :: rest) with
      | some (name, back) => some ([], name, back)
      | none => (regexSearch rest).map (fun found => (symbol :: found.1, found.2))

/-- The elements of `/fastcgi/variables`, each with its text and its attribute `name`. The
error is the text of a `std::logic_error`. -/
def findVariables (nodes : List (Option Bytes × Option Bytes)) : Except String VarMap :=
  nodes.foldlM (fun vars node =>
    match node with
    | (some val, some name) => .ok (vars.insert name val)
    | _ => .error "bad variable definition") .empty

def nonexistent (key : Bytes) : Exn := .runtimeError ("nonexistent variable " ++ quoted key)

def findVariable (vars : VarMap) (key : Bytes) : Except Exn Bytes :=
  match vars.find? key with
  | some val => .ok val
  | none => .error (nonexistent key)

/-- The loop; no result means that it takes more turns than it was given. -/
def resolveVariables (vars : VarMap) : Nat → Bytes → Option (Except Exn Bytes)
  | 0, _ => none
  | fuel + 1, val =>
      match regexSearch val with
      | none => some (.ok val)
      | some (front, key, back) =>
          match findVariable vars key with
          | .error exn => some (.error exn)
          | .ok replacement => resolveVariables vars fuel (front ++ replacement ++ back)

example : (findVariables [(some (ascii "80"), some (ascii "port"))]).toOption.map (fun vars =>
    resolveVariables vars 2 (ascii "host:$\x7bport\x7d")) = some (some (.ok (ascii "host:80"))) := by
  decide +kernel

theorem isName_symbols : (name : Bytes) → (named : isName name = true) → ∀ symbol ∈ name, nameSymbol symbol = true
  | first :: rest, named, symbol, member => by
      simp only [isName, Bool.and_eq_true, List.all_eq_true] at named
      rcases List.mem_cons.mp member with rfl | later
      · have alpha := named.1
        simp only [letter, nameSymbol, isalnum, Bool.or_eq_true] at alpha ⊢
        tauto
      · exact named.2 symbol later

theorem isName_plain (name : Bytes) (named : isName name = true) :
    (36 : UInt8) ∉ name ∧ (123 : UInt8) ∉ name ∧ (125 : UInt8) ∉ name := by
  refine ⟨?_, ?_, ?_⟩
  · intro member
    exact absurd (isName_symbols name named 36 member) (by decide)
  · intro member
    exact absurd (isName_symbols name named 123 member) (by decide)
  · intro member
    exact absurd (isName_symbols name named 125 member) (by decide)

theorem matchFront_reference (name back : Bytes) (named : isName name = true) :
    matchFront (reference name ++ back) = some (name, back) := by
  have symbols := isName_symbols name named
  have stop : nameSymbol 125 = false := by decide
  have taken := Range.takeWhile_symbol symbols stop back
  have dropped := Range.dropWhile_symbol symbols stop back
  have text : reference name ++ back = 36 :: 123 :: (name ++ 125 :: back) := by simp [reference]
  rw [text]
  simp only [matchFront, dropped, taken, named, if_true]

theorem matchFront_some (text name back : Bytes) (found : matchFront text = some (name, back)) :
    text = reference name ++ back ∧ isName name = true := by
  unfold matchFront at found
  split at found
  · next text =>
      split at found
      · next rest dropped =>
          split at found
          · next named =>
              simp only [Option.some.injEq, Prod.mk.injEq] at found
              obtain ⟨rfl, rfl⟩ := found
              have whole := List.takeWhile_append_dropWhile (p := nameSymbol) (l := text)
              rw [dropped] at whole
              refine ⟨?_, named⟩
              simp [reference, whole]
          · cases found
      · cases found
  · cases found

theorem regexSearch_none (text : Bytes) (missed : regexSearch text = none) (front name back : Bytes)
    (named : isName name = true) : text ≠ front ++ reference name ++ back := by
  induction text generalizing front with
  | nil => simp [reference]
  | cons symbol rest ih =>
      unfold regexSearch at missed
      split at missed
      · cases missed
      · next unmatched =>
          intro same
          cases front with
          | nil =>
              rw [same, List.nil_append, matchFront_reference name back named] at unmatched
              cases unmatched
          | cons first others =>
              rw [List.cons_append, List.cons_append, List.cons.injEq] at same
              exact ih (Option.map_eq_none_iff.mp missed) others same.2

theorem regexSearch_some (text front name back : Bytes) (found : regexSearch text = some (front, name, back)) :
    text = front ++ reference name ++ back ∧ isName name = true := by
  induction text generalizing front with
  | nil => cases found
  | cons symbol rest ih =>
      unfold regexSearch at found
      split at found
      · next matched =>
          cases found
          exact matchFront_some _ _ _ matched
      · obtain ⟨⟨others, later⟩, here, shape⟩ := Option.map_eq_some_iff.mp found
        simp only [Prod.mk.injEq] at shape
        obtain ⟨rfl, rfl⟩ := shape
        obtain ⟨split, named⟩ := ih others here
        refine ⟨?_, named⟩
        rw [split]
        simp

end XmlConfig

end FastcgiContainer
