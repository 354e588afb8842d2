/-!
# Filling gaps

A text that says nothing gives way to another.
-/

namespace ApiDoc.Text

/-- An empty text is filled, any other stays. -/
def fill (own base : String) : String := if own.isEmpty then base else own

@[simp]
theorem fill_self (text : String) : fill text text = text := by simp [fill]

@[simp]
theorem fill_empty (text : String) : fill text "" = text := by
  simp only [fill]
  split
  · next h => exact (String.isEmpty_iff.1 h).symm
  · rfl

@[simp]
theorem empty_fill (text : String) : fill "" text = text := rfl

end ApiDoc.Text
