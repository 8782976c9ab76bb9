import DiceCalculator.Proofs.Expr.Lexing
import DiceCalculator.Proofs.Expr.Unambiguity
/-!
# Reading accepts the grammar

A text reads as an expression exactly when it splits into the tokens of a derivation that denotes
the expression. Neither the splitting nor the derivation leaves a choice.
-/
namespace DiceCalculator

open Token (Splits Spelled)

/-- A text reads as an expression when its tokens derive it from a sum, and only then. -/
theorem Expr.parse_eq_ok_iff {text : String} {e : Expr} :
    Expr.parse text = .ok e ↔ ∃ tokens, Splits text.toList tokens ∧ Derives .sum tokens e := by
  rw [Expr.parse, Reader.read_eq_ok_iff, Reader.feed_finish_iff]
  constructor
  · rintro ⟨hillegal, hderives⟩
    exact ⟨_, Token.splits_iff.mpr ⟨hillegal, rfl⟩, hderives⟩
  · rintro ⟨tokens, hsplits, hderives⟩
    obtain ⟨hillegal, rfl⟩ := Token.splits_iff.mp hsplits
    exact ⟨hillegal, hderives⟩

theorem Token.Splits.unique {text : String} {ts us : List Token} (ht : Splits text.toList ts)
    (hu : Splits text.toList us) : ts = us :=
  (Token.splits_iff.mp ht).2.symm.trans (Token.splits_iff.mp hu).2

/-- A text reads as what a derivation of its tokens denotes, and as nothing else. It has one
splitting and one derivation at most, leading zeros do not matter, and whatever splits into the same
tokens reads the same. -/
theorem Expr.parse_eq_ok_iff_denotes (text : String) :
    (∀ e, Expr.parse text = .ok e ↔
        ∃ d : Derivation .sum, Splits text.toList d.tokens ∧ d.denote = e) ∧
      (∀ ts us, Splits text.toList ts → Splits text.toList us → ts = us) ∧
      (∀ d d' : Derivation .sum, Splits text.toList d.tokens → Splits text.toList d'.tokens →
        d = d') ∧
      (∀ value word, Spelled (.number value) word → Spelled (.number value) ('0' :: word)) ∧
      ∀ (other : String) (ts : List Token), Splits text.toList ts → Splits other.toList ts →
        ∀ e, Expr.parse text = .ok e ↔ Expr.parse other = .ok e := by
  refine ⟨?reads, fun ts us => Token.Splits.unique, ?derivation, fun _ _ => Spelled.zero_cons,
    ?same⟩
  case reads =>
    intro e
    rw [Expr.parse_eq_ok_iff]
    constructor
    · rintro ⟨_, hsplits, d, rfl, rfl⟩
      exact ⟨d, hsplits, rfl⟩
    · rintro ⟨d, hsplits, rfl⟩
      exact ⟨_, hsplits, d, rfl, rfl⟩
  case derivation =>
    intro d d' hd hd'
    exact Derivation.tokens_inj (hd.unique hd')
  case same =>
    intro other ts htext hother e
    rw [Expr.parse_eq_ok_iff, Expr.parse_eq_ok_iff]
    constructor
    · rintro ⟨us, hus, hderives⟩
      exact ⟨ts, hother, htext.unique hus ▸ hderives⟩
    · rintro ⟨us, hus, hderives⟩
      exact ⟨ts, htext, hother.unique hus ▸ hderives⟩

theorem parse_of_difference_chain :
    Splits "007 - 2 - d6".toList [.number 7, .minus, .number 2, .minus, .die, .number 6] ∧
      Splits "7-2-d6".toList [.number 7, .minus, .number 2, .minus, .die, .number 6] ∧
      Expr.parse "007 - 2 - d6" = .ok (.arith .difference
        (.arith .difference (.literal 7) (.literal 2)) (.dice (.literal 1) (.literal 6))) ∧
      Expr.parse "7-2-d6" = .ok (.arith .difference
        (.arith .difference (.literal 7) (.literal 2)) (.dice (.literal 1) (.literal 6))) := by
  obtain ⟨hreads, _, _, _, hsame⟩ := Expr.parse_eq_ok_iff_denotes "007 - 2 - d6"
  have hzeros : Splits "007 - 2 - d6".toList
      [.number 7, .minus, .number 2, .minus, .die, .number 6] :=
    Token.splits_iff.mpr (by decide +kernel)
  have hplain : Splits "7-2-d6".toList [.number 7, .minus, .number 2, .minus, .die, .number 6] :=
    Token.splits_iff.mpr (by decide +kernel)
  have hparse := (hreads _).mpr
    ⟨.sub (.sub (.ofProduct (.ofPower (.ofUnary (.ofRoll (.ofAtom (.number 7))))))
        (.ofPower (.ofUnary (.ofRoll (.ofAtom (.number 2))))))
      (.ofPower (.ofUnary (.ofRoll (.die (.sidesOfAtom (.number 6)))))), hzeros, rfl⟩
  exact ⟨hzeros, hplain, hparse, (hsame _ _ hzeros hplain _).mp hparse⟩

end DiceCalculator
