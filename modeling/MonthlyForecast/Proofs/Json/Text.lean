import MonthlyForecast.Json.Text

/-! Strings that are written are read back. A character is written as itself, as a one-letter
escape or as a code unit, and each of these is read as that one character, whatever follows. -/
namespace MonthlyForecast.Json.Piece

/-- The code units below a space are written and read as the same number. -/
theorem codeUnit?_hexDigits (unit : Nat) (control : unit < 0x20) :
    ∃ a b c d, hexDigits unit = [a, b, c, d] ∧ codeUnit? a b c d = some unit := by
  have table : ∀ unit : Fin 0x20,
      hexDigits unit = ['0', '0', (hexDigits unit).getD 2 '0', (hexDigits unit).getD 3 '0'] ∧
        codeUnit? '0' '0' ((hexDigits unit).getD 2 '0') ((hexDigits unit).getD 3 '0') =
          some unit.val := by decide
  exact ⟨_, _, _, _, table ⟨unit, control⟩⟩

theorem readAll_codeUnit {a b c d : Char} {unit : Nat} (read : codeUnit? a b c d = some unit)
    (rest : List Char) :
    readAll ('\\' :: 'u' :: a :: b :: c :: d :: rest) =
      (readAll rest).map fun (pieces, rest) => (ofCodeUnit unit :: pieces, rest) := by
  rw [readAll, read]
  cases readAll rest <;> rfl

theorem readAll_letter {letter c : Char} (escape : unescaped? letter = some c)
    (rest : List Char) :
    readAll ('\\' :: letter :: rest) =
      (readAll rest).map fun (pieces, rest) => (.char c :: pieces, rest) := by
  rw [readAll.eq_def]
  split
  case h_3 =>
    rename_i same
    cases same
    contradiction
  case h_4 =>
    rename_i same
    cases same
    rw [escape]
    cases readAll rest <;> rfl
  all_goals grind

theorem readAll_plain {c : Char} (quote : c ≠ '"') (escape : c ≠ '\\') (control : ¬c.toNat < 0x20)
    (rest : List Char) :
    readAll (c :: rest) = (readAll rest).map fun (pieces, rest) => (.char c :: pieces, rest) := by
  rw [readAll.eq_def]
  split
  case h_5 =>
    rename_i same
    cases same
    rw [if_neg (not_or.mpr ⟨escape, control⟩)]
  all_goals grind

theorem readAll_escaped (c : Char) (rest : List Char) :
    readAll (escaped c ++ rest) =
      (readAll rest).map fun (pieces, rest) => (.char c :: pieces, rest) := by
  unfold escaped
  split
  case h_8 quote escape _ _ _ _ _ =>
    split
    · rename_i control
      obtain ⟨a, b, c', d, digits, read⟩ := codeUnit?_hexDigits c.toNat control
      have unit : ofCodeUnit c.toNat = .char c := by
        rw [ofCodeUnit, if_neg (by omega), Char.ofNat_toNat]
      rw [digits]
      exact (readAll_codeUnit read rest).trans (by rw [unit])
    · rename_i control
      exact readAll_plain quote escape control rest
  all_goals exact readAll_letter rfl rest

theorem readAll_ofString (text : String) (rest : List Char) :
    readAll ((ofString text).flatMap render ++ '"' :: rest) = some (ofString text, rest) := by
  unfold ofString
  induction text.toList with
  | nil => rfl
  | cons c more ih =>
    rw [List.map_cons, List.flatMap_cons, List.append_assoc]
    change readAll (escaped c ++ _) = _
    rw [readAll_escaped, ih]
    rfl

end MonthlyForecast.Json.Piece
