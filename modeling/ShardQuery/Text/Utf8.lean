/-! # UTF-8

The bytes of a text in UTF-8, character by character. -/

namespace ShardQuery.Text

def utf8 (cs : List Char) : List UInt8 := cs.flatMap String.utf8EncodeChar

def bytesOf (s : String) : List UInt8 := utf8 s.toList

def byteLength (cs : List Char) : Nat := cs.foldr (fun c n => c.utf8Size + n) 0

theorem length_utf8 (cs : List Char) : (utf8 cs).length = byteLength cs := by
  induction cs with
  | nil => rfl
  | cons c cs ih =>
    simp only [utf8, byteLength, List.flatMap_cons, List.length_append, String.length_utf8EncodeChar,
      List.foldr_cons] at ih ⊢
    rw [ih]

theorem byteLength_eq_length {cs : List Char} (h : ∀ c ∈ cs, c.utf8Size = 1) :
    byteLength cs = cs.length := by
  induction cs with
  | nil => rfl
  | cons c cs ih =>
    have hrest := ih fun d hd => h d (List.mem_cons_of_mem _ hd)
    rw [byteLength] at hrest ⊢
    rw [List.foldr_cons, hrest, h c List.mem_cons_self, List.length_cons, Nat.add_comm]

theorem bytesOf_eq (s : String) : bytesOf s = s.toByteArray.data.toList := by
  rw [← String.ofList_toList (s := s), String.toByteArray_ofList]
  simp [bytesOf, utf8, List.utf8Encode]

theorem length_bytesOf (s : String) : (bytesOf s).length = s.utf8ByteSize := by
  rw [bytesOf_eq]
  rfl

end ShardQuery.Text
