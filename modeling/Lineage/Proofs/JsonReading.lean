import Lineage.Json.Reader
import Mathlib.Algebra.Order.Group.Nat

/-!
# What a reader of structured values consumes

Every value in a list of a structured value is followed by a comma or by the end of
the list.  So a text has at least as many characters as there are values in the
lists of what it says, however deep these lists lie.
-/

namespace Lineage

namespace Json

mutual

/-- The number of values in the lists of a value, however deep these lie in it. -/
def listed : Json → Nat
  | array items => listedItems items
  | object fields => listedFields fields
  | _ => 0

def listedItems : List Json → Nat
  | [] => 0
  | item :: rest => listed item + 1 + listedItems rest

def listedFields : List (String × Json) → Nat
  | [] => 0
  | (_, value) :: rest => listed value + listedFields rest

end

section Reading

variable {α : Type}

/-- A reader takes at least as many characters as what it reads weighs. -/
def Consumes (weight : α → Nat) (read : List Char → Option (α × List Char)) : Prop :=
  ∀ characters value rest, read characters = some (value, rest) →
    weight value + rest.length ≤ characters.length

theorem length_skipBlanks_le (characters : List Char) :
    (skipBlanks characters).length ≤ characters.length := by
  fun_induction skipBlanks characters with
  | case1 character rest blank ih =>
      rw [List.length_cons]
      omega
  | case2 character rest solid => exact le_rfl
  | case3 => exact le_rfl

theorem consumes_readUnit : Consumes (fun _ => 4) readUnit := by
  intro characters value rest read
  unfold readUnit at read
  split at read
  · obtain ⟨_, _, same⟩ := Option.bind_eq_some_iff.mp read
    cases same
    simp only [List.length_cons]
    omega
  · cases read

theorem consumes_readEscapedUnit : Consumes (fun _ => 4) readEscapedUnit := by
  intro characters value rest read
  change 4 + rest.length ≤ characters.length
  obtain ⟨⟨unit, more⟩, first, second⟩ := Option.bind_eq_some_iff.mp read
  have taken := consumes_readUnit _ _ _ first
  dsimp only at taken second
  split at second
  · cases second
  · split at second
    · split at second
      · obtain ⟨⟨low, others⟩, third, fourth⟩ := Option.bind_eq_some_iff.mp second
        have takenAgain := consumes_readUnit _ _ _ third
        dsimp only at takenAgain fourth
        split at fourth
        · rw [Option.some.injEq, Prod.mk.injEq] at fourth
          obtain ⟨_, rfl⟩ := fourth
          simp only [List.length_cons] at taken
          omega
        · cases fourth
      · cases second
    · cases second
      exact taken

theorem length_of_readText {fuel : Nat} {collected characters rest : List Char} {text : String}
    (read : readText fuel collected characters = some (text, rest)) :
    rest.length ≤ characters.length := by
  fun_induction readText fuel collected characters with
  | case12 fuel collected more character after escaped ih =>
      have taken := consumes_readEscapedUnit _ _ _ escaped
      have kept := ih read
      simp only [List.length_cons]
      omega
  | _ => grind

theorem length_spanDigits_le (characters : List Char) :
    (spanDigits characters).2.length ≤ characters.length := by
  induction characters with
  | nil => exact le_rfl
  | cons character rest ih =>
      rw [spanDigits]
      split
      · rw [List.length_cons]
        exact Nat.le_succ_of_le ih
      · exact le_rfl

theorem length_of_readFraction {characters rest : List Char} {fraction? : Option (List Nat)}
    (read : readFraction characters = some (fraction?, rest)) :
    rest.length ≤ characters.length := by
  unfold readFraction at read
  split at read
  · rename_i more
    have taken := length_spanDigits_le more
    split at read
    · cases read
    · rename_i digits after _ spanned
      cases read
      rw [spanned] at taken
      exact Nat.le_succ_of_le taken
  · cases read
    exact le_rfl

theorem length_of_readExponent {characters rest : List Char} {exponent? : Option Int}
    (read : readExponent characters = some (exponent?, rest)) :
    rest.length ≤ characters.length := by
  unfold readExponent at read
  split at read
  · rename_i mark more
    split at read
    · split at read
      rename_i isNegative digits sign
      have signed : digits.length ≤ more.length := by
        split at sign <;> cases sign <;> simp
      have taken := length_spanDigits_le digits
      split at read
      · cases read
      · rename_i whole after _ spanned
        cases read
        rw [spanned] at taken
        rw [List.length_cons]
        exact Nat.le_succ_of_le (taken.trans signed)
    · cases read
      exact le_rfl
  · cases read
    exact le_rfl

theorem consumes_readNumber (isNegative : Bool) : Consumes listed (readNumber isNegative) := by
  intro characters value rest read
  unfold readNumber at read
  have taken := length_spanDigits_le characters
  dsimp only at read
  split at read
  · cases read
  · cases read
  · obtain ⟨⟨fraction?, behind⟩, first, second⟩ := Option.bind_eq_some_iff.mp read
    obtain ⟨⟨exponent?, after⟩, third, fourth⟩ := Option.bind_eq_some_iff.mp second
    have takenNext := length_of_readFraction first
    have takenLast : after.length ≤ behind.length := length_of_readExponent third
    have ending : value.listed = 0 ∧ rest = after := by
      repeat' split at fourth
      all_goals
        rw [Option.some.injEq, Prod.mk.injEq] at fourth
        obtain ⟨rfl, rfl⟩ := fourth
        exact ⟨by simp [listed], rfl⟩
    rw [ending.1, ending.2]
    omega

section Step

variable {fuel : Nat}

theorem consumes_readValue (items : Consumes listedItems (readItems fuel))
    (fields : Consumes listedFields (readFields fuel)) :
    Consumes listed (readValue (fuel + 1)) := by
  intro characters value rest read
  have blanks := length_skipBlanks_le characters
  rw [readValue] at read
  split at read
  case h_1 _ _ front | h_2 _ _ front | h_3 _ _ front =>
    cases read
    simp only [front, List.length_cons, listed] at blanks ⊢
    omega
  · rename_i front
    obtain ⟨⟨text, after⟩, first, same⟩ := Option.map_eq_some_iff.mp read
    cases same
    have taken := length_of_readText first
    simp only [front, List.length_cons, listed] at blanks ⊢
    omega
  · rename_i front
    have taken := consumes_readNumber true _ _ _ read
    rw [front, List.length_cons] at blanks
    omega
  · rename_i inside front
    have blanksNext := length_skipBlanks_le inside
    rw [front, List.length_cons] at blanks
    split at read
    · rename_i closing
      cases read
      simp only [closing, List.length_cons, listed, listedItems] at blanksNext ⊢
      omega
    · obtain ⟨⟨found, after⟩, first, same⟩ := Option.map_eq_some_iff.mp read
      cases same
      have taken := items _ _ _ first
      rw [listed]
      omega
  · rename_i inside front
    have blanksNext := length_skipBlanks_le inside
    rw [front, List.length_cons] at blanks
    split at read
    · rename_i closing
      cases read
      simp only [closing, List.length_cons, listed, listedFields] at blanksNext ⊢
      omega
    · obtain ⟨⟨found, after⟩, first, same⟩ := Option.map_eq_some_iff.mp read
      cases same
      have taken := fields _ _ _ first
      rw [listed]
      omega
  · exact (consumes_readNumber false _ _ _ read).trans blanks

theorem consumes_readItems (values : Consumes listed (readValue fuel))
    (items : Consumes listedItems (readItems fuel)) :
    Consumes listedItems (readItems (fuel + 1)) := by
  intro characters found rest read
  rw [readItems] at read
  split at read
  · cases read
  · rename_i item after first
    have taken := values _ _ _ first
    have blanks := length_skipBlanks_le after
    split at read
    · rename_i closing
      cases read
      simp only [closing, List.length_cons, listedItems] at blanks ⊢
      omega
    · rename_i onward
      obtain ⟨⟨others, last⟩, second, same⟩ := Option.map_eq_some_iff.mp read
      cases same
      have takenNext := items _ _ _ second
      simp only [onward, List.length_cons, listedItems] at blanks ⊢
      omega
    · cases read

theorem consumes_readFields (values : Consumes listed (readValue fuel))
    (fields : Consumes listedFields (readFields fuel)) :
    Consumes listedFields (readFields (fuel + 1)) := by
  intro characters found rest read
  have blanks := length_skipBlanks_le characters
  rw [readFields] at read
  split at read
  · rename_i quoted opening
    rw [opening, List.length_cons] at blanks
    split at read
    · cases read
    · rename_i name named text
      have takenName := length_of_readText text
      have blanksNext := length_skipBlanks_le named
      split at read
      · rename_i valued colon
        rw [colon, List.length_cons] at blanksNext
        split at read
        · cases read
        · rename_i value after first
          have taken := values _ _ _ first
          have blanksLast := length_skipBlanks_le after
          split at read
          · rename_i closing
            cases read
            simp only [closing, List.length_cons, listedFields] at blanksLast ⊢
            omega
          · rename_i onward
            obtain ⟨⟨others, last⟩, second, same⟩ := Option.map_eq_some_iff.mp read
            cases same
            have takenNext := fields _ _ _ second
            simp only [onward, List.length_cons, listedFields] at blanksLast ⊢
            omega
          · cases read
      · cases read
  · cases read

end Step

/-- The readers call one another, each with less fuel. -/
theorem consumes_read (fuel : Nat) :
    Consumes listed (readValue fuel) ∧ Consumes listedItems (readItems fuel) ∧
      Consumes listedFields (readFields fuel) := by
  induction fuel with
  | zero =>
      refine ⟨?_, ?_, ?_⟩ <;>
        · intro characters value rest read
          cases read
  | succ fuel ih =>
      obtain ⟨values, items, fields⟩ := ih
      exact ⟨consumes_readValue items fields, consumes_readItems values items,
        consumes_readFields values fields⟩

/-- A text has more characters than there are values in the lists of what it says. -/
theorem listed_le_length_of_parse {text : String} {value : Json}
    (parsed : parse text = some value) : value.listed ≤ text.length := by
  rw [parse] at parsed
  split at parsed
  · rename_i found rest read
    have taken := (consumes_read _).1 _ _ _ read
    split at parsed
    · cases parsed
      rw [← String.length_toList]
      omega
    · cases parsed
  · cases parsed

end Reading

theorem length_le_listedItems (items : List Json) : items.length ≤ listedItems items := by
  induction items with
  | nil => exact le_rfl
  | cons item items ih =>
      rw [List.length_cons, listedItems]
      omega

theorem listed_le_of_lookup {name : String} {fields : List (String × Json)} {value : Json}
    (found : lookup name fields = some value) : value.listed ≤ listedFields fields := by
  induction fields with
  | nil => cases found
  | cons field fields ih =>
      obtain ⟨other, present⟩ := field
      rw [lookup] at found
      rw [listedFields]
      split at found
      · rename_i later behind
        cases found
        exact (ih behind).trans (Nat.le_add_left _ _)
      · split at found
        · cases found
          exact Nat.le_add_right _ _
        · cases found

end Json

end Lineage
