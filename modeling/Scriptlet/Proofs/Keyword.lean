import Scriptlet.Program.Keyword
import Scriptlet.Token

namespace Scriptlet
set_option autoImplicit true

theorem Keyword.toLower_word (k : Keyword) : k.word.toLower = k.word := by
  cases k <;> decide +kernel

theorem Keyword.ofName?_eq_some_iff : Keyword.ofName? x = some k ↔ k.word = x.toLower := by
  constructor
  · intro h
    unfold Keyword.ofName? at h
    simpa using List.find?_some h
  · intro h
    unfold Keyword.ofName?
    rw [← h]
    cases k <;> rfl

namespace Token

theorem isKeyword_iff {t : Token} {w : String} :
    t.isKeyword w ↔ t.kind = .identifier ∧ t.lexeme.toLower = w.toLower := by
  simp [isKeyword]

theorem isKeyword_word_iff {t : Token} {k : Keyword} :
    t.isKeyword k.word ↔ t.kind = .identifier ∧ Keyword.ofName? t.lexeme = some k := by
  rw [isKeyword_iff, Keyword.ofName?_eq_some_iff, k.toLower_word, eq_comm (a := k.word)]

theorem not_isKeyword {t : Token} (ht : t.kind ≠ .identifier) (w : String) :
    t.isKeyword w = false := by
  simp [isKeyword, ht]

end Token

end Scriptlet
