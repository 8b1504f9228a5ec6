/-! # Vocabularies and choices

A vocabulary is a finite list of terms, each with the name it has in documents and the title it has
in messages.  A choice says of every term whether it belongs; it is listed in the vocabulary's
order, each term once, however it was put together.
-/

namespace LocationBroker.Provider

/-- A type with finitely many terms in a fixed order. -/
class Vocabulary (ι : Type) extends BEq ι, LawfulBEq ι where
  /-- Every term, in order. -/
  all : List ι
  /-- No term is left out. -/
  mem_all : ∀ i : ι, i ∈ all
  /-- The name of a term in documents. -/
  name : ι → String
  /-- The title of a term in messages. -/
  title : ι → String

/-- The names of a vocabulary with their terms. -/
def Vocabulary.known (ι : Type) [Vocabulary ι] : List (String × ι) :=
  (Vocabulary.all (ι := ι)).map fun i => (Vocabulary.name i, i)

/-- Some of the terms of a vocabulary. -/
structure Choice (ι : Type) where
  has : ι → Bool

namespace Choice

variable {ι : Type}

theorem ext {a b : Choice ι} (h : ∀ i, a.has i = b.has i) : a = b := by
  cases a; cases b
  exact congrArg Choice.mk (funext h)

/-- No term. -/
def none : Choice ι := ⟨fun _ => false⟩

def all : Choice ι := ⟨fun _ => true⟩

def union (a b : Choice ι) : Choice ι := ⟨fun i => a.has i || b.has i⟩

def inter (a b : Choice ι) : Choice ι := ⟨fun i => a.has i && b.has i⟩

variable [Vocabulary ι]

def ofList (terms : List ι) : Choice ι := ⟨fun i => terms.contains i⟩

def insert (a : Choice ι) (i : ι) : Choice ι := ⟨fun j => j == i || a.has j⟩

def toList (a : Choice ι) : List ι := Vocabulary.all.filter a.has

def isEmpty (a : Choice ι) : Bool := Vocabulary.all.all fun i => !a.has i

/-- Whether every term belongs to the other choice too. -/
def subset (a b : Choice ι) : Bool := Vocabulary.all.all fun i => !a.has i || b.has i

def same (a b : Choice ι) : Bool := a.subset b && b.subset a

/-- The titles between braces. -/
def text (a : Choice ι) : String :=
  "\x7b" ++ ", ".intercalate (a.toList.map Vocabulary.title) ++ "\x7d"

/-! ## Membership -/

@[simp] theorem has_ofList {terms : List ι} {i : ι} : (ofList terms).has i = true ↔ i ∈ terms := by
  simp [ofList]

@[simp] theorem mem_toList {a : Choice ι} {i : ι} : i ∈ a.toList ↔ a.has i = true := by
  simp [toList, Vocabulary.mem_all]

theorem isEmpty_iff {a : Choice ι} : a.isEmpty = true ↔ ∀ i, a.has i = false := by
  simp [isEmpty, Vocabulary.mem_all]

theorem isEmpty_eq_false_iff {a : Choice ι} : a.isEmpty = false ↔ ∃ i, a.has i = true := by
  rw [← Bool.not_eq_true, isEmpty_iff]
  simp

theorem subset_iff {a b : Choice ι} :
    a.subset b = true ↔ ∀ i, a.has i = true → b.has i = true := by
  simp only [subset, List.all_eq_true, Vocabulary.mem_all, forall_const, Bool.or_eq_true,
    Bool.not_eq_true']
  refine forall_congr' fun i => ?_
  cases a.has i <;> simp

end Choice

end LocationBroker.Provider
