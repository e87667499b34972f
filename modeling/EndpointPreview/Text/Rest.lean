/-!
What is left of a text when something has been taken off its front. That it is not longer than the
text is known from its type, so whatever reads a text can go on with what is left.
-/

namespace EndpointPreview

abbrev Tail (s : List Char) : Type :=
  { r : List Char // r.length ≤ s.length }

abbrev Rest (s : List Char) : Type :=
  { r : List Char // r.length < s.length }

variable {s : List Char}

namespace Tail

def all (s : List Char) : Tail s :=
  ⟨s, Nat.le_refl _⟩

def none (s : List Char) : Tail s :=
  ⟨[], Nat.zero_le _⟩

def drop (n : Nat) (s : List Char) : Tail s :=
  ⟨s.drop n, (List.drop_suffix n s).length_le⟩

def dropWhile (p : Char → Bool) (s : List Char) : Tail s :=
  ⟨s.dropWhile p, (List.dropWhile_suffix p).length_le⟩

def and (t : Tail s) (t' : Tail t.val) : Tail s :=
  ⟨t'.val, Nat.le_trans t'.property t.property⟩

def andRest (t : Tail s) (r : Rest t.val) : Rest s :=
  ⟨r.val, Nat.lt_of_lt_of_le r.property t.property⟩

def past (c : Char) (t : Tail s) : Rest (c :: s) :=
  ⟨t.val, Nat.lt_succ_of_le t.property⟩

end Tail

namespace Rest

def tail (r : Rest s) : Tail s :=
  ⟨r.val, Nat.le_of_lt r.property⟩

def and (r : Rest s) (r' : Rest r.val) : Rest s :=
  ⟨r'.val, Nat.lt_trans r'.property r.property⟩

def andTail (r : Rest s) (t : Tail r.val) : Rest s :=
  ⟨t.val, Nat.lt_of_le_of_lt t.property r.property⟩

def past (c : Char) (r : Rest s) : Rest (c :: s) :=
  r.tail.past c

def afterFirst (c : Char) (s : List Char) : Rest (c :: s) :=
  (Tail.all s).past c

/-- Recursion on a text: a step may use what is made of any rest of its text. -/
def recurse {motive : List Char → Type}
    (step : (s : List Char) → ((r : Rest s) → motive r.val) → motive s) (s : List Char) :
    motive s :=
  step s fun r => recurse step r.val
termination_by s.length
decreasing_by exact r.property

end Rest

end EndpointPreview
