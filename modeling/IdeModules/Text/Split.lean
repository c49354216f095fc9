/-!
# Splitting and trimming text

A text splits at every occurrence of a separator, so joining the pieces with
that separator gives the text back.  Trimming removes the characters of a
class from the two ends only.  A word that characters start with can be taken
off their front.
-/

namespace IdeModules

/-- The pieces of a list of characters between the occurrences of a separator. -/
def splitChars (separator : Char) : List Char → List (List Char)
  | [] => [[]]
  | c :: rest =>
    if c = separator then [] :: splitChars separator rest
    else
      match splitChars separator rest with
      | [] => [[c]]
      | piece :: pieces => (c :: piece) :: pieces

/-- The pieces of a list of characters, joined by a separator. -/
def joinChars (separator : Char) : List (List Char) → List Char
  | [] => []
  | [piece] => piece
  | piece :: pieces => piece ++ separator :: joinChars separator pieces

def pieces (separator : Char) (text : String) : List String :=
  (splitChars separator text.toList).map String.ofList

def joined (separator : String) (parts : List String) : String :=
  separator.intercalate parts

/-- A list of characters without those of a class at its end. -/
def trimRight (drop : Char → Bool) (cs : List Char) : List Char :=
  (cs.reverse.dropWhile drop).reverse

/-- A list of characters without those of a class at its two ends. -/
def trimBoth (drop : Char → Bool) (cs : List Char) : List Char :=
  trimRight drop (cs.dropWhile drop)

/-- The characters after a word, if they start with it. -/
def stripWord : List Char → List Char → Option (List Char)
  | [], cs => some cs
  | _ :: _, [] => none
  | w :: word, c :: cs => if w = c then stripWord word cs else none

theorem splitChars_ne_nil (separator : Char) (cs : List Char) :
    splitChars separator cs ≠ [] := by
  cases cs with
  | nil => simp [splitChars]
  | cons c rest =>
      simp only [splitChars]
      split
      · simp
      · split <;> simp

theorem joinChars_splitChars (separator : Char) (cs : List Char) :
    joinChars separator (splitChars separator cs) = cs := by
  induction cs with
  | nil => rfl
  | cons c rest restored =>
      simp only [splitChars]
      split
      · rename_i same
        cases parts : splitChars separator rest with
        | nil => exact absurd parts (splitChars_ne_nil separator rest)
        | cons piece others => simp [joinChars, ← parts, restored, same]
      · split
        · rename_i parts
          exact absurd parts (splitChars_ne_nil separator rest)
        · rename_i piece others parts
          rw [parts] at restored
          cases others with
          | nil => simpa [joinChars] using restored
          | cons other others => simpa [joinChars] using restored

theorem splitChars_of_not_mem {separator : Char} {cs : List Char} (absent : separator ∉ cs) :
    splitChars separator cs = [cs] := by
  induction cs with
  | nil => rfl
  | cons c rest ih =>
      rw [List.mem_cons, not_or] at absent
      rw [splitChars, if_neg (Ne.symm absent.1), ih absent.2]

theorem splitChars_append {separator : Char} {front : List Char} (absent : separator ∉ front)
    (rest : List Char) :
    splitChars separator (front ++ separator :: rest) = front :: splitChars separator rest := by
  induction front with
  | nil => rw [List.nil_append, splitChars, if_pos rfl]
  | cons c front ih =>
      rw [List.mem_cons, not_or] at absent
      rw [List.cons_append, splitChars, if_neg (Ne.symm absent.1), ih absent.2]

theorem not_mem_of_mem_splitChars {separator : Char} {cs piece : List Char}
    (member : piece ∈ splitChars separator cs) : separator ∉ piece := by
  induction cs generalizing piece with
  | nil =>
      obtain rfl := List.mem_singleton.mp member
      exact List.not_mem_nil
  | cons c rest ih =>
      rw [splitChars] at member
      split at member
      · rcases List.mem_cons.mp member with rfl | inRest
        · exact List.not_mem_nil
        · exact ih inRest
      · rename_i different
        split at member
        · rename_i parts
          exact absurd parts (splitChars_ne_nil separator rest)
        · rename_i first others parts
          rw [parts, List.forall_mem_cons] at ih
          rcases List.mem_cons.mp member with rfl | inRest
          · rw [List.mem_cons, not_or]
            exact ⟨Ne.symm different, ih.1⟩
          · exact ih.2 piece inRest

/-- An ending without the separator stays at the last piece. -/
theorem splitChars_append_ending {separator : Char} {ending : List Char}
    (absent : separator ∉ ending) (cs : List Char) :
    ∃ front last, splitChars separator cs = front ++ [last] ∧
      splitChars separator (cs ++ ending) = front ++ [last ++ ending] := by
  induction cs with
  | nil => exact ⟨[], [], rfl, splitChars_of_not_mem absent⟩
  | cons c rest ih =>
      obtain ⟨front, last, parts, extended⟩ := ih
      rw [List.cons_append, splitChars, splitChars, parts, extended]
      split
      · exact ⟨[] :: front, last, rfl, rfl⟩
      · cases front with
        | nil => exact ⟨[], c :: last, rfl, rfl⟩
        | cons piece others => exact ⟨(c :: piece) :: others, last, rfl, rfl⟩

theorem stripWord_append (word cs : List Char) : stripWord word (word ++ cs) = some cs := by
  induction word with
  | nil => rfl
  | cons w word ih => simp [stripWord, ih]

theorem eq_append_of_stripWord {word cs rest : List Char}
    (stripped : stripWord word cs = some rest) : cs = word ++ rest := by
  induction word generalizing cs with
  | nil => simpa [stripWord] using stripped
  | cons w word ih =>
      cases cs with
      | nil => simp [stripWord] at stripped
      | cons c cs =>
          by_cases same : w = c
          · subst same
            simp only [stripWord, if_pos] at stripped
            simp [ih stripped]
          · simp [stripWord, same] at stripped

/-- A word is looked for at the front only. -/
theorem stripWord_append_right {word front : List Char} (long : word.length ≤ front.length)
    (back : List Char) :
    stripWord word (front ++ back) = (stripWord word front).map (· ++ back) := by
  induction word generalizing front with
  | nil => simp [stripWord]
  | cons w word ih =>
      cases front with
      | nil => simp at long
      | cons c front =>
          by_cases same : w = c
          · simpa [stripWord, same] using ih (by simpa using long)
          · simp [stripWord, same]

end IdeModules
