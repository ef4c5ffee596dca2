/-!
# Splitting text

A text is cut at every occurrence of a separator. There is always one piece
more than there are separators.
-/

namespace CurriedScript.Text

def split (separator : Char) : List Char → List (List Char)
  | [] => [[]]
  | c :: rest =>
    if c = separator then [] :: split separator rest
    else
      match split separator rest with
      | [] => [[c]]
      | piece :: pieces => (c :: piece) :: pieces

theorem length_split (separator : Char) (text : List Char) :
    (split separator text).length = text.count separator + 1 := by
  fun_induction split separator text with
  | case1 => rfl
  | case2 rest ih => simp [ih]
  | case3 c rest h hs ih => simp [hs] at ih
  | case4 c rest h piece pieces hs ih => simpa [hs, h] using ih

end CurriedScript.Text
