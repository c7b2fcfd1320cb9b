import Deduction.Text.Quoted

/-!
Labels of hypotheses.
-/

namespace Deduction

/-- How labels are written: plainly in sequents, and told apart by kind in messages. -/
class LabelText (Label : Type) where
  plain : Label → Text
  describe : Label → String

/-- A label that a person chooses. -/
inductive Label where
  | number (value : Int)
  | name (text : Text)
  deriving DecidableEq, Repr, Inhabited

namespace Label

def plain : Label → Text
  | .number value => toString value
  | .name text => text

def describe : Label → String
  | .number value => toString value
  | .name text => Text.quoted text

instance : LabelText Label := ⟨plain, describe⟩

end Label

/-- Label types with an endless supply of labels that are numbered one by one. -/
class FreshLabels (Label : Type) where
  fresh : (serial : Nat) → Label

/-- A chosen label or a numbered one; the two are never equal. -/
inductive ScopedLabel where
  | chosen (label : Label)
  | fresh (serial : Nat)
  deriving DecidableEq, Repr

namespace ScopedLabel

/-- The texts of the label whose number is written so. -/
def freshPlain (serial : Text) : Text := "#" ++ serial

def freshDescribe (serial : String) : String := s!"FreshLabel(serial={serial})"

def plain : ScopedLabel → Text
  | .chosen label => label.plain
  | .fresh serial => freshPlain (toString serial)

def describe : ScopedLabel → String
  | .chosen label => label.describe
  | .fresh serial => freshDescribe (toString serial)

instance : LabelText ScopedLabel := ⟨plain, describe⟩

instance : FreshLabels ScopedLabel := ⟨fresh⟩

end ScopedLabel

end Deduction
