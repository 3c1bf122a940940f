import LuaChunk.Opcode
import LuaChunk.Text.Hex
import Mathlib.Algebra.Group.Nat.Defs
import Mathlib.Data.List.Nodup
import Std.Data.String.ToInt

/-!
# Texts and their pieces

A character that is used as a mark cuts a text into pieces: line feeds cut it into lines, tabs cut a
line into columns, spaces cut a column into numbers. A text that was joined from pieces without the
mark falls into them again.

What stands in the pieces are names and numbers. Neither has a mark in it, and both tell what they
are of: a decimal text its number, a hexadecimal text as much of its number as has room in it, and a
name its opcode.

## Key results

* `pieces_intercalate`          pieces without the mark are found again in the text joined from them
* `intercalate_append_append`   joined texts between others that are joined with them
* `Hex.digits_inj`              hexadecimal digits determine what they show of a number
* `Opcode.name_inj`             no two opcodes have the same name
-/

namespace LuaChunk

/-- The pieces of a text between the occurrences of a character. -/
def pieces (mark : Char) (text : String) : List String :=
  (text.toList.splitOn mark).map String.ofList

section Pieces

variable {mark : Char} {sep s t : String}

/-- A text without the mark is one piece. -/
theorem pieces_of_notMem (h : mark ∉ s.toList) : pieces mark s = [s] := by
  rw [pieces, List.splitOn_eq_singleton h, List.map_singleton, String.ofList_toList]

/-- Texts that are joined with the mark have the pieces of both. -/
theorem pieces_append (hsep : sep.toList = [mark]) (s t : String) :
    pieces mark (s ++ sep ++ t) = pieces mark s ++ pieces mark t := by
  simp only [pieces, String.toList_append, hsep, List.append_assoc, List.singleton_append,
    List.splitOn_append_cons_self, List.map_append]

/-- What stands in front of the first mark is the first piece. -/
theorem pieces_append_of_notMem (hsep : sep.toList = [mark]) (h : mark ∉ s.toList) (t : String) :
    pieces mark (s ++ sep ++ t) = s :: pieces mark t := by
  rw [pieces_append hsep, pieces_of_notMem h, List.singleton_append]

/-- Pieces without the mark are found again in the text joined from them. -/
theorem pieces_intercalate {ps : List String} (hsep : sep.toList = [mark]) (hne : ps ≠ [])
    (h : ∀ p ∈ ps, mark ∉ p.toList) : pieces mark (sep.intercalate ps) = ps := by
  -- on lists of characters, splitting undoes joining
  have hsplit : ([mark].intercalate (ps.map String.toList)).splitOn mark = ps.map String.toList :=
    List.splitOn_intercalate mark (List.forall_mem_map.2 h) (List.map_eq_nil_iff.not.2 hne)
  rw [pieces, String.toList_intercalate, hsep, hsplit, List.map_map]
  simp only [Function.comp_def, String.ofList_toList, List.map_id']

/-- A character that is in none of the pieces is not in the joined text. -/
theorem notMem_intercalate {c : Char} {ps : List String} (hsep : c ∉ sep.toList)
    (h : ∀ p ∈ ps, c ∉ p.toList) : c ∉ (sep.intercalate ps).toList := by
  induction ps with
  | nil => exact List.not_mem_nil
  | cons p ps ih =>
    obtain ⟨hp, hps⟩ := List.forall_mem_cons.1 h
    -- a separator stands in front of each piece but the first
    cases ps with
    | nil => rwa [String.intercalate_singleton]
    | cons q qs =>
      rw [String.intercalate_cons_cons, String.toList_append, String.toList_append,
        List.mem_append, List.mem_append, not_or, not_or]
      exact ⟨⟨hp, hsep⟩, ih hps⟩

end Pieces

/-! ### Joined texts -/

section Joined

variable {sep : String}

/-- Behind the first text, each one follows a separator. -/
theorem intercalate_cons_eq_append_join (s : String) (ts : List String) :
    sep.intercalate (s :: ts) = s ++ String.join (ts.map (sep ++ ·)) := by
  induction ts generalizing s with
  | nil => rw [String.intercalate_singleton, List.map_nil, String.join_nil, String.append_empty]
  | cons t ts ih =>
    rw [String.intercalate_cons_cons, ih t, List.map_cons, String.join_cons]
    simp only [String.append_assoc]

/-- In front of texts that are joined, each one is followed by a separator. -/
theorem intercalate_append_of_ne_nil_right {ts : List String} (hne : ts ≠ []) (ss : List String) :
    sep.intercalate (ss ++ ts) = String.join (ss.map (· ++ sep)) ++ sep.intercalate ts := by
  induction ss with
  | nil => rw [List.nil_append, List.map_nil, String.join_nil, String.empty_append]
  | cons s ss ih =>
    have hne' : ss ++ ts ≠ [] := List.append_ne_nil_of_right_ne_nil ss hne
    rw [List.cons_append, String.intercalate_cons_of_ne_nil hne', ih, List.map_cons,
      String.join_cons]
    simp only [String.append_assoc]

/-- Joined texts between others: of those in front each is followed by the separator, and of those
behind each follows one. -/
theorem intercalate_append_append {ts : List String} (hne : ts ≠ []) (ss us : List String) :
    sep.intercalate (ss ++ ts ++ us) =
      String.join (ss.map (· ++ sep)) ++ sep.intercalate ts ++
        String.join (us.map (sep ++ ·)) := by
  obtain ⟨t, ts, rfl⟩ := List.exists_cons_of_ne_nil hne
  rw [List.append_assoc, List.cons_append,
    intercalate_append_of_ne_nil_right (List.cons_ne_nil _ _), intercalate_cons_eq_append_join,
    intercalate_cons_eq_append_join, List.map_append, String.join_append]
  simp only [String.append_assoc]

end Joined

/-! ### Numbers -/

section Numbers

variable {c : Char}

/-- A decimal text has digits only. -/
theorem notMem_repr_nat (hdigit : c.isDigit = false) (n : Nat) : c ∉ n.repr.toList := by
  intro hc
  rw [Nat.toList_repr] at hc
  have hmem := Nat.isDigit_of_mem_toDigits (by decide) (by decide) hc
  rw [hdigit] at hmem
  exact Bool.false_ne_true hmem

/-- A decimal text of an integer may have a sign as well. -/
theorem notMem_repr_int (hdigit : c.isDigit = false) (hsign : c ≠ '-') (i : Int) :
    c ∉ i.repr.toList := by
  cases i with
  | ofNat n => exact notMem_repr_nat hdigit n
  | negSucc n =>
    have hn := notMem_repr_nat hdigit n.succ
    rw [Int.repr, String.toList_append, List.mem_append, not_or]
    exact ⟨List.not_mem_cons_of_ne_of_not_mem hsign List.not_mem_nil, hn⟩

namespace Hex

/-- Hexadecimal digits are the sixteen that there are. -/
theorem notMem_digits (hdigit : ∀ d < 16, Nat.digitChar d ≠ c) (width n : Nat) :
    c ∉ digits width n := by
  induction width generalizing n with
  | zero => exact List.not_mem_nil
  | succ width ih =>
    rw [digits, List.mem_append, List.mem_singleton, not_or]
    exact ⟨ih (n / 16), (hdigit (n % 16) (Nat.mod_lt n (by decide))).symm⟩

theorem notMem_padded (hdigit : ∀ d < 16, Nat.digitChar d ≠ c) (width n : Nat) :
    c ∉ (padded width n).toList := by
  rw [padded, String.toList_ofList]
  exact notMem_digits hdigit width n

theorem digitChar_inj : ∀ m < 16, ∀ n < 16, Nat.digitChar m = Nat.digitChar n → m = n := by
  decide

/-- Digits determine what they show of a number, which is as much as there is room for. -/
theorem digits_inj {width m n : Nat} (h : digits width m = digits width n) :
    m % 16 ^ width = n % 16 ^ width := by
  induction width generalizing m n with
  | zero => rw [Nat.pow_zero, Nat.mod_one, Nat.mod_one]
  | succ width ih =>
    -- the last digit is the remainder by sixteen, and the others show the quotient
    obtain ⟨hhigh, hlow⟩ := List.append_inj' h rfl
    have hlast : m % 16 = n % 16 :=
      digitChar_inj _ (Nat.mod_lt m (by decide)) _ (Nat.mod_lt n (by decide))
        (List.singleton_inj.1 hlow)
    rw [Nat.pow_succ, Nat.mul_comm, Nat.mod_mul, Nat.mod_mul, ih hhigh, hlast]

end Hex

end Numbers

/-! ### Names of opcodes -/

namespace Opcode

theorem mem_all (op : Opcode) : op ∈ all :=
  List.mem_of_getElem? (ofNat?_toNat op)

/-- Names of opcodes are in capital letters. -/
theorem isUpper_of_mem_name (op : Opcode) : ∀ c ∈ op.name.toList, c.isUpper := by
  have hall : op.name.toList.all Char.isUpper := by
    cases op <;> decide
  exact List.all_eq_true.1 hall

/-- No mark is a capital letter, and so none is in a name. -/
theorem notMem_name {c : Char} (hupper : c.isUpper = false) (op : Opcode) :
    c ∉ op.name.toList := by
  intro hc
  have hmem := op.isUpper_of_mem_name c hc
  rw [hupper] at hmem
  exact Bool.false_ne_true hmem

/-- The names in the opcode column of a listing, which include the one for unknown opcodes. -/
theorem nodup_names : ("UNKNOWN" :: all.map name).Nodup := by
  decide

/-- No two opcodes have the same name. -/
theorem name_inj {op op' : Opcode} : op.name = op'.name ↔ op = op' := by
  have hnodup := (List.nodup_cons.1 nodup_names).2
  exact ⟨List.inj_on_of_nodup_map hnodup op.mem_all op'.mem_all, congrArg name⟩

/-- No opcode is called what an unknown one is called in a listing. -/
theorem name_ne_unknown (op : Opcode) : op.name ≠ "UNKNOWN" := by
  intro h
  exact (List.nodup_cons.1 nodup_names).1 (h ▸ List.mem_map_of_mem op.mem_all)

end Opcode

end LuaChunk
