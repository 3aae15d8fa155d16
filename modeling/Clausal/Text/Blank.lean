namespace Clausal.Text

/-- White space of all scripts, together with the four separators U+001C to U+001F. -/
def isBlank (c : Char) : Bool :=
  let n := c.toNat
  (0x9 ≤ n && n ≤ 0xD) || (0x1C ≤ n && n ≤ 0x20) || n == 0x85 || n == 0xA0 || n == 0x1680 ||
    (0x2000 ≤ n && n ≤ 0x200A) || n == 0x2028 || n == 0x2029 || n == 0x202F || n == 0x205F ||
    n == 0x3000

def trimWhere (p : Char → Bool) (cs : List Char) : List Char :=
  ((cs.dropWhile p).reverse.dropWhile p).reverse

def trim : List Char → List Char :=
  trimWhere isBlank

/-- The longest runs of characters that are not blank, after the run `word` read so far. -/
def wordsFrom (word : List Char) : List Char → List (List Char)
  | [] => if word.isEmpty then [] else [word]
  | c :: cs =>
    if isBlank c then
      if word.isEmpty then wordsFrom [] cs else word :: wordsFrom [] cs
    else wordsFrom (word ++ [c]) cs

def words : List Char → List (List Char) :=
  wordsFrom []

theorem not_isBlank_of_mem_wordsFrom {cs word w : List Char} {c : Char}
    (hword : ∀ d ∈ word, isBlank d = false) (hw : w ∈ wordsFrom word cs) (hc : c ∈ w) :
    isBlank c = false := by
  induction cs generalizing word with
  | nil =>
    simp only [wordsFrom] at hw
    split at hw
    · simp at hw
    · simp only [List.mem_singleton] at hw
      exact hword c (hw ▸ hc)
  | cons d ds ih =>
    simp only [wordsFrom] at hw
    split at hw
    · split at hw
      · exact ih (by simp) hw
      · rcases List.mem_cons.mp hw with rfl | hw
        · exact hword c hc
        · exact ih (by simp) hw
    · rename_i hd
      refine ih ?_ hw
      intro e he
      rcases List.mem_append.mp he with he | he
      · exact hword e he
      · simp only [List.mem_singleton] at he
        simpa [he] using hd

theorem not_isBlank_of_mem_words {cs w : List Char} {c : Char} (hw : w ∈ words cs) (hc : c ∈ w) :
    isBlank c = false :=
  not_isBlank_of_mem_wordsFrom (by simp) hw hc

end Clausal.Text
