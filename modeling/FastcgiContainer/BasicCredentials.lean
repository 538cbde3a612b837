import FastcgiContainer.Mediation
import FastcgiContainer.Base64

/-! Which user name and password `BasicAuthenticator::authenticate` takes from the header
that a client has made of them: `base64_decode` undoes `base64_encode`, and
`StringUtils::split` gives two pieces where the user name is not empty and the password
has no colon in it. -/

namespace FastcgiContainer

open Word (Bytes)

namespace StringUtils

theorem splitLoop_alone {c : UInt8} {text : Bytes} (absent : c ∉ text) (fuel : Nat)
    (enough : text.length ≤ fuel) : splitLoop c fuel text = [text] := by
  cases text with
  | nil => cases fuel <;> rfl
  | cons symbol rest =>
      cases fuel with
      | zero => simp at enough
      | succ fuel =>
          have plain := Range.ne_of_absent absent
          have other : symbol ≠ c := by
            rintro rfl
            exact absent List.mem_cons_self
          rw [splitLoop, if_neg other, List.dropWhile_eq_nil_iff.mpr plain,
            List.takeWhile_eq_self_iff.mpr plain]

theorem splitLoop_piece {c : UInt8} {piece : Bytes} (absent : c ∉ piece) (filled : piece ≠ [])
    (rest : Bytes) (fuel : Nat) :
    splitLoop c (fuel + 1) (piece ++ c :: rest) = piece :: splitLoop c fuel rest := by
  cases piece with
  | nil => exact absurd rfl filled
  | cons symbol others =>
      have plain := Range.ne_of_absent absent
      have stop : (c != c) = false := by simp
      have other : symbol ≠ c := by
        rintro rfl
        exact absent List.mem_cons_self
      have front := Range.takeWhile_symbol plain stop rest
      have back := Range.dropWhile_symbol plain stop rest
      rw [List.cons_append] at front back ⊢
      rw [splitLoop, if_neg other, front, back]

theorem splitLoop_symbols (c : UInt8) (fuel : Nat) (text : Bytes) :
    ∀ piece ∈ splitLoop c fuel text, ∀ symbol ∈ piece, symbol ∈ text ∧ symbol ≠ c := by
  induction fuel generalizing text with
  | zero => simp [splitLoop]
  | succ fuel ih =>
      cases text with
      | nil => simp [splitLoop]
      | cons first rest =>
          intro piece member symbol inside
          unfold splitLoop at member
          split at member
          · obtain ⟨held, other⟩ := ih rest piece member symbol inside
            exact ⟨List.mem_cons_of_mem _ held, other⟩
          · dsimp only at member
            have front : ∀ symbol ∈ (first :: rest).takeWhile (fun other => other != c),
                symbol ∈ first :: rest ∧ symbol ≠ c := by
              intro symbol held
              exact ⟨(List.takeWhile_prefix _).subset held, by simpa using List.mem_takeWhile_imp held⟩
            split at member
            · obtain rfl := List.mem_singleton.mp member
              exact front symbol inside
            · next delimiter tail back =>
                rcases List.mem_cons.mp member with rfl | later
                · exact front symbol inside
                · obtain ⟨held, other⟩ := ih tail piece later symbol inside
                  have rear : symbol ∈ (first :: rest).dropWhile (fun other => other != c) := by
                    rw [back]
                    exact List.mem_cons_of_mem _ held
                  exact ⟨(List.dropWhile_suffix _).subset rear, other⟩

theorem splitLoop_filled (c : UInt8) (fuel : Nat) {text first second : Bytes} {others : List Bytes}
    (pieces : splitLoop c fuel text = first :: second :: others) : first ≠ [] := by
  induction fuel generalizing text with
  | zero => cases pieces
  | succ fuel ih =>
      cases text with
      | nil => cases pieces
      | cons symbol rest =>
          unfold splitLoop at pieces
          split at pieces
          · exact ih pieces
          · next other =>
              dsimp only at pieces
              split at pieces
              · cases pieces
              · rw [← (List.cons.inj pieces).1]
                simp [other]

theorem split_symbols (str : Bytes) (c : UInt8) :
    ∀ piece ∈ split str c, ∀ symbol ∈ piece, symbol ≠ 0 ∧ symbol ≠ c := by
  intro piece member symbol inside
  unfold split at member
  split at member
  · cases member
  · obtain ⟨held, other⟩ := splitLoop_symbols c _ _ piece member symbol inside
    exact ⟨by simpa using List.mem_takeWhile_imp held, other⟩

theorem split_filled {str first second : Bytes} {c : UInt8} {others : List Bytes}
    (pieces : split str c = first :: second :: others) : first ≠ [] := by
  unfold split at pieces
  split at pieces
  · cases pieces
  · exact splitLoop_filled c _ pieces

theorem split_pair {c : UInt8} (visible : c ≠ 0) {front back : Bytes} (filled : front ≠ [])
    (plain : ∀ symbol ∈ front ++ back, symbol ≠ 0 ∧ symbol ≠ c) :
    split (front ++ c :: back) c = [front, back] := by
  have text : ∀ symbol ∈ front ++ c :: back, (symbol != 0) = true := by
    intro symbol member
    simp only [List.mem_append, List.mem_cons] at member
    rcases member with left | rfl | right
    · simpa using (plain symbol (List.mem_append_left _ left)).1
    · simpa using visible
    · simpa using (plain symbol (List.mem_append_right _ right)).1
  have left : c ∉ front := fun member => (plain c (List.mem_append_left _ member)).2 rfl
  have right : c ∉ back := fun member => (plain c (List.mem_append_right _ member)).2 rfl
  unfold split
  rw [if_neg (by simp), List.takeWhile_eq_self_iff.mpr text]
  have length : (front ++ c :: back).length = (front.length + back.length) + 1 := by
    simp only [List.length_append, List.length_cons]
    omega
  dsimp only
  rw [length, splitLoop_piece left filled back, splitLoop_alone right _ (Nat.le_add_left _ _)]

end StringUtils

namespace BasicAuthenticator

def authenticateBy (doLogin : Situation → Bytes → Bytes → Step Bool) (authenticator : Authenticator)
    (situation : Situation) : Step Bool :=
  match credentials situation.request with
  | .error exn => (situation, .error (.exn exn))
  | .ok (some (username, password)) => doLogin situation username password
  | .ok none =>
      match situation.update (challenge authenticator situation.request) with
      | (situation, .error failure) => (situation, .error failure)
      | (situation, .ok ()) => (situation, .ok false)

/-- The user names and passwords that come apart again at the colon between them. -/
structure Separable (user password : Bytes) : Prop where
  named : user ≠ []
  text : ∀ symbol ∈ user ++ password, symbol ≠ 0
  single : 58 ∉ password

/-- One call of `doLogin`, with these arguments, is all that `authenticate` does. -/
theorem authenticateBy_iff (authenticator : Authenticator) (situation : Situation)
    (user password : Bytes) :
    (∀ doLogin, authenticateBy doLogin authenticator situation = doLogin situation user password) ↔
      credentials situation.request = .ok (some (user, password)) := by
  constructor
  · intro calls
    have verdict := calls (fun situation username credentials =>
      (situation, .ok (decide (username = user ∧ credentials = password))))
    unfold authenticateBy at verdict
    split at verdict
    · cases verdict
    · next username given parsed =>
        have same := (Prod.mk.inj verdict).2
        simp only [Except.ok.injEq, decide_eq_decide, and_self, iff_true] at same
        rw [parsed, same.1, same.2]
    · split at verdict
      · cases verdict
      · have same := (Prod.mk.inj verdict).2
        simp at same
  · intro parsed doLogin
    simp only [authenticateBy, parsed]

theorem credentials_sent {request : Request} {bindata ascdata : Bytes}
    (encoded : HashUtils.base64Encode bindata = .ok ascdata)
    (sent : request.getHeader (ascii "Authorization") = ascii "Basic " ++ ascdata) :
    credentials request =
      match StringUtils.split bindata 58 with
      | [username, password] => .ok (some (username, password))
      | _ => .ok none := by
  have plain := HashUtils.base64Encode_symbols encoded
  have given : request.hasHeader (ascii "Authorization") = true := by
    cases found : request.headers.find? (ascii "Authorization") with
    | none =>
        rw [Request.getHeader, found] at sent
        simp [ascii] at sent
    | some value => rw [Request.hasHeader, found, Option.isSome_some]
  have pieces : StringUtils.split (ascii "Basic " ++ ascdata) 32 = [ascii "Basic", ascdata] := by
    have shape : ascii "Basic " ++ ascdata = ascii "Basic" ++ 32 :: ascdata := rfl
    rw [shape]
    refine StringUtils.split_pair (by decide) (by decide) ?_
    intro symbol member
    have scheme : ∀ symbol ∈ ascii "Basic", symbol ≠ 0 ∧ symbol ≠ 32 := by decide +kernel
    rcases List.mem_append.mp member with left | right
    · exact scheme symbol left
    · exact plain symbol right
  rcases parts : StringUtils.split bindata 58 with _ | ⟨username, _ | ⟨password, _ | ⟨other, rest⟩⟩⟩ <;>
    simp only [credentials, given, if_true, sent, pieces, HashUtils.base64Decode_encode encoded, parts]

/-- The credentials of a client reach `doLogin` as they are exactly when the user name is
not empty and neither a colon in the password nor a zero is in the way. -/
theorem credentials_passed_iff (uuid : Nat → Bytes) (crawlerAgents : Bytes → Bool) (others : List Nat)
    (authenticator : Authenticator) (situation : Situation) (user password ascdata : Bytes)
    (colon : 58 ∉ user) (encoded : HashUtils.base64Encode (user ++ 58 :: password) = .ok ascdata)
    (sent : situation.request.getHeader (ascii "Authorization") = ascii "Basic " ++ ascdata) :
    authenticate uuid crawlerAgents others authenticator situation =
        authenticateBy (fun situation => situation.doLogin uuid crawlerAgents others authenticator)
          authenticator situation ∧
      ((∀ doLogin, authenticateBy doLogin authenticator situation = doLogin situation user password) ↔
        Separable user password) := by
  refine ⟨rfl, ?_⟩
  rw [authenticateBy_iff, credentials_sent encoded sent]
  constructor
  · intro parsed
    split at parsed
    · next username given pieces =>
        obtain ⟨rfl, rfl⟩ := Prod.mk.inj (Option.some.inj (Except.ok.inj parsed))
        have symbols := StringUtils.split_symbols (username ++ 58 :: given) 58
        rw [pieces] at symbols
        refine ⟨StringUtils.split_filled pieces, ?_, ?_⟩
        · intro symbol member
          rcases List.mem_append.mp member with left | right
          · exact (symbols username (by simp) symbol left).1
          · exact (symbols given (by simp) symbol right).1
        · intro member
          exact (symbols given (by simp) 58 member).2 rfl
    · cases parsed
  · intro separable
    have pieces : StringUtils.split (user ++ 58 :: password) 58 = [user, password] := by
      refine StringUtils.split_pair (by decide) separable.named ?_
      intro symbol member
      refine ⟨separable.text symbol member, ?_⟩
      rintro rfl
      rcases List.mem_append.mp member with left | right
      · exact colon left
      · exact separable.single right
    rw [pieces]

theorem credentials_passed_iff_bob :
    authenticate (fun _ => []) (fun _ => false) [] Scheme.sampleGuard Scheme.sampleVisit =
      Scheme.sampleVisit.doLogin (fun _ => []) (fun _ => false) [] Scheme.sampleGuard (ascii "bob")
        (ascii "pw") := by
  obtain ⟨same, passed⟩ := credentials_passed_iff (fun _ => []) (fun _ => false) [] Scheme.sampleGuard
    Scheme.sampleVisit (ascii "bob") (ascii "pw") (ascii "Ym9iOnB3") (by decide) (by decide +kernel)
    (by decide +kernel)
  rw [same]
  exact passed.mpr ⟨by decide +kernel, by decide +kernel, by decide +kernel⟩ _

def colonVisit : Situation where
  sessions := none
  heap := []
  request := { Request.fresh with
    headers := OrderedMap.empty.assign (ascii "Authorization") (ascii "Basic Ym9iOjpwdw==") }
  responseStream := []

theorem credentials_passed_colon :
    HashUtils.base64Encode (ascii "bob" ++ 58 :: ascii ":pw") = .ok (ascii "Ym9iOjpwdw==") ∧
      colonVisit.request.getHeader (ascii "Authorization") = ascii "Basic " ++ ascii "Ym9iOjpwdw==" ∧
      credentials colonVisit.request = .ok (some (ascii "bob", ascii "pw")) ∧
      ¬ ∀ doLogin, authenticateBy doLogin Scheme.sampleGuard colonVisit =
        doLogin colonVisit (ascii "bob") (ascii ":pw") := by
  have parsed : credentials colonVisit.request = .ok (some (ascii "bob", ascii "pw")) := by
    decide +kernel
  refine ⟨by decide +kernel, by decide +kernel, parsed, ?_⟩
  rw [authenticateBy_iff, parsed]
  decide

end BasicAuthenticator

end FastcgiContainer
