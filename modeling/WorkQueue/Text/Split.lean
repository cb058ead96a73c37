/-! # Parts of a text -/
namespace WorkQueue.Text

/-- The parts between the characters that separate them. There is always one part. -/
def splitBy (separates : Char → Bool) : List Char → List (List Char)
  | [] => [[]]
  | c :: rest =>
    match splitBy separates rest with
    | [] => [[]]
    | part :: parts => if separates c then [] :: part :: parts else (c :: part) :: parts

theorem splitBy_ne_nil (separates : Char → Bool) (cs : List Char) :
    splitBy separates cs ≠ [] := by
  cases cs with
  | nil => simp [splitBy]
  | cons c rest =>
    simp only [splitBy]
    split
    · simp
    · split <;> simp

end WorkQueue.Text
