/-! Joining and splitting of texts. -/
namespace MultiCluster.Text

def join (separator : String) : List String → String
  | [] => ""
  | [s] => s
  | s :: rest => s ++ separator ++ join separator rest

def splitAtFirst (c : Char) : List Char → Option (List Char × List Char)
  | [] => none
  | x :: rest =>
    if x == c then some ([], rest)
    else (splitAtFirst c rest).map fun (a, b) => (x :: a, b)

/-- The pieces between separators; `n` separators make `n + 1` pieces, empty ones included. -/
def pieces (c : Char) : List Char → List (List Char)
  | [] => [[]]
  | x :: rest =>
    if x == c then [] :: pieces c rest
    else match pieces c rest with
      | [] => [[x]]
      | p :: ps => (x :: p) :: ps

def splitOn (c : Char) (s : String) : List String := (pieces c s.toList).map String.ofList

theorem pieces_ne_nil {c : Char} {cs : List Char} : pieces c cs ≠ [] := by
  cases cs with
  | nil => simp [pieces]
  | cons x rest =>
    unfold pieces
    by_cases same : (x == c) = true
    · simp [same]
    · rw [if_neg same]
      cases pieces c rest <;> simp

theorem pieces_of_not_mem {c : Char} {cs : List Char} (free : c ∉ cs) : pieces c cs = [cs] := by
  induction cs with
  | nil => rfl
  | cons x rest ih =>
    obtain ⟨other, later⟩ : c ≠ x ∧ c ∉ rest := by simpa using free
    simp [pieces, Ne.symm other, ih later]

theorem pieces_append {c : Char} {cs ds : List Char} :
    pieces c (cs ++ c :: ds) = pieces c cs ++ pieces c ds := by
  induction cs with
  | nil => simp [pieces]
  | cons x rest ih =>
    rw [List.cons_append, pieces, pieces, ih]
    by_cases same : (x == c) = true
    · rw [if_pos same, if_pos same, List.cons_append]
    · rw [if_neg same, if_neg same]
      cases found : pieces c rest with
      | nil => exact absurd found pieces_ne_nil
      | cons first others => rfl

/-- The pieces of a text and the separators between them are the text. -/
theorem eq_of_pieces {c : Char} {cs first : List Char} {others : List (List Char)}
    (cut : pieces c cs = first :: others) : cs = first ++ others.flatMap (c :: ·) := by
  induction cs generalizing first others with
  | nil =>
    obtain ⟨rfl, rfl⟩ := List.cons.inj cut
    rfl
  | cons x rest ih =>
    rw [pieces] at cut
    by_cases same : x = c
    · subst same
      rw [if_pos (beq_self_eq_true x)] at cut
      obtain ⟨rfl, rfl⟩ := List.cons.inj cut
      cases later : pieces x rest with
      | nil => exact absurd later pieces_ne_nil
      | cons second others => simp [← ih later]
    · rw [if_neg (by simpa using same)] at cut
      cases later : pieces c rest with
      | nil => exact absurd later pieces_ne_nil
      | cons second others =>
        rw [later] at cut
        obtain ⟨rfl, rfl⟩ := List.cons.inj cut
        rw [List.cons_append, ← ih later]

end MultiCluster.Text
