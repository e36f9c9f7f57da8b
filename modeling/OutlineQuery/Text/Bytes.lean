/-!
Texts measured and cut in bytes of UTF-8.
-/

namespace OutlineQuery.Text

def byteSize : List Char → Nat
  | [] => 0
  | c :: text => c.utf8Size + byteSize text

def takeBytes (n : Nat) : List Char → List Char
  | [] => []
  | c :: text => if n = 0 then [] else c :: takeBytes (n - c.utf8Size) text

def dropBytes (n : Nat) : List Char → List Char
  | [] => []
  | c :: text => if n = 0 then c :: text else dropBytes (n - c.utf8Size) text

@[simp] theorem takeBytes_zero (text : List Char) : takeBytes 0 text = [] := by
  cases text <;> simp [takeBytes]

@[simp] theorem dropBytes_zero (text : List Char) : dropBytes 0 text = text := by
  cases text <;> simp [dropBytes]

theorem byteSize_append (left right : List Char) :
    byteSize (left ++ right) = byteSize left + byteSize right := by
  induction left with
  | nil => simp [byteSize]
  | cons c left ih => simp [byteSize, ih, Nat.add_assoc]

theorem takeBytes_append (left right : List Char) :
    takeBytes (byteSize left) (left ++ right) = left := by
  induction left with
  | nil => simp [byteSize]
  | cons c left ih =>
    have := c.utf8Size_pos
    simp [byteSize, takeBytes, ih]
    omega

theorem dropBytes_append (left right : List Char) :
    dropBytes (byteSize left) (left ++ right) = right := by
  induction left with
  | nil => simp [byteSize]
  | cons c left ih =>
    have := c.utf8Size_pos
    simp [byteSize, dropBytes, ih]
    omega

end OutlineQuery.Text
