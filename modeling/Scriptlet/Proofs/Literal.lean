import Mathlib
import Scriptlet.Proofs.Lexeme.Positions
import Scriptlet.Proofs.Printing.Lexing

namespace Scriptlet
set_option autoImplicit true

namespace Text

/-- A part of what stands between the quotes of a string: a character by itself, or a backslash with
the character behind it. -/
inductive Part
  | plain (c : Char) (hq : c ≠ '"') (hb : c ≠ '\\')
  | pair (c : Char)

/-- The characters that a backslash changes, each with what it makes of them. -/
def escapes : List (Char × Char) :=
  [('n', '\n'), ('t', '\t'), ('r', '\r'), ('0', '\x00'), ('\\', '\\'), ('"', '"'), ('\'', '\'')]

namespace Part

def written : Part → List Char
  | plain c .. => [c]
  | pair c => ['\\', c]

def meaning : Part → List Char
  | plain c .. => [c]
  | pair c =>
    match escapes.lookup c with
    | some d => [d]
    | none => ['\\', c]

end Part

def quoted (parts : List Part) : List Char :=
  '"' :: (parts.flatMap Part.written ++ ['"'])

/-- What stands between the quotes, or what `bare` makes of a text that lacks one of them. -/
def unquoteOr (bare : List Char → List Char) (cs : List Char) : List Char :=
  match cs with
  | '"' :: rest => if rest.getLast? = some '"' then rest.dropLast else bare cs
  | _ => bare cs

/-- Decodes backslash pairs, with `lone` for a backslash at the end. -/
def decodeOr (lone : List Char) : List Char → List Char
  | [] => []
  | ['\\'] => lone
  | '\\' :: c :: rest => (escaped? c).elim ['\\', c] ([·]) ++ decodeOr lone rest
  | c :: rest => c :: decodeOr lone rest

def unescapeOr (bare : List Char → List Char) (lone : List Char) (lexeme : String) : String :=
  String.ofList (decodeOr lone (unquoteOr bare lexeme.toList))

theorem decodeOr_lone (cs : List Char) : decodeOr ['\\'] cs = decode cs := by
  fun_induction decodeOr ['\\'] cs with
  | case1 => rfl
  | case2 => rfl
  | case3 c rest ih =>
    rw [decode, ih]
    cases escaped? c <;> rfl
  | case4 c rest hlast hpair ih =>
    have hb : c ≠ '\\' := by
      intro hc
      cases rest with
      | nil => exact hlast hc rfl
      | cons d rest => exact hpair d rest hc rfl
    rw [decode_cons hb, ih]

theorem unescapeOr_id (lexeme : String) : unescapeOr id ['\\'] lexeme = unescape lexeme := by
  rw [unescapeOr, decodeOr_lone]
  rfl

theorem escaped?_eq_lookup (c : Char) : escaped? c = escapes.lookup c := by
  unfold escaped?
  split
  case h_8 => exact (List.lookup_eq_none_iff.2 (by simp_all [escapes])).symm
  all_goals rfl

theorem decodeOr_cons {c : Char} (hb : c ≠ '\\') (lone rest : List Char) :
    decodeOr lone (c :: rest) = c :: decodeOr lone rest := by
  rw [decodeOr.eq_def]
  split <;> simp_all

/-- Parts are decoded each by itself, and none of them is a lone backslash. -/
theorem decodeOr_written (lone : List Char) (parts : List Part) :
    decodeOr lone (parts.flatMap Part.written) = parts.flatMap Part.meaning := by
  induction parts with
  | nil => rfl
  | cons part parts ih =>
    rw [List.flatMap_cons, List.flatMap_cons, ← ih]
    cases part with
    | plain c hq hb => exact decodeOr_cons hb lone _
    | pair c =>
      rw [Part.written, Part.meaning, List.cons_append, List.singleton_append, decodeOr,
        escaped?_eq_lookup]
      cases escapes.lookup c <;> rfl

theorem unquoteOr_quoted (bare : List Char → List Char) (parts : List Part) :
    unquoteOr bare (quoted parts) = parts.flatMap Part.written := by
  rw [quoted, unquoteOr, if_pos List.getLast?_concat, List.dropLast_concat]

theorem unescapeOr_quoted (bare : List Char → List Char) (lone : List Char) {lexeme : String}
    (h : lexeme.toList = quoted parts) :
    unescapeOr bare lone lexeme = String.ofList (parts.flatMap Part.meaning) := by
  rw [unescapeOr, h, unquoteOr_quoted, decodeOr_written]

theorem written_injective {parts parts' : List Part}
    (h : parts.flatMap Part.written = parts'.flatMap Part.written) : parts = parts' := by
  induction parts generalizing parts' with
  | nil =>
    cases parts' with
    | nil => rfl
    | cons part parts' => cases part <;> cases h
  | cons part parts ih =>
    cases parts' with
    | nil => cases part <;> cases h
    | cons part' parts' =>
      cases part with
      | plain c hq hb =>
        cases part' with
        | plain d hq' hb' =>
          obtain ⟨rfl, hrest⟩ := List.cons.inj h
          rw [ih hrest]
        | pair d => exact absurd (List.cons.inj h).1 hb
      | pair c =>
        cases part' with
        | plain d hq' hb' => exact absurd (List.cons.inj h).1.symm hb'
        | pair d =>
          obtain ⟨rfl, hrest⟩ := List.cons.inj (List.cons.inj h).2
          rw [ih hrest]

theorem quoted_injective {parts parts' : List Part} (h : quoted parts = quoted parts') :
    parts = parts' :=
  written_injective (List.append_cancel_right (List.cons.inj h).2)

end Text

theorem Quotable.parts (h : Quotable cs) : ∃ parts : List Text.Part,
    cs = parts.flatMap Text.Part.written := by
  induction h with
  | nil => exact ⟨[], rfl⟩
  | plain hq hb h ih =>
    obtain ⟨parts, rfl⟩ := ih
    exact ⟨.plain _ hq hb :: parts, rfl⟩
  | pair h ih =>
    obtain ⟨parts, rfl⟩ := ih
    exact ⟨.pair _ :: parts, rfl⟩

theorem Lexeme.quoted (h : Lexeme (some .string) l) : ∃ parts, l = Text.quoted parts := by
  generalize hk : some TokenKind.string = kind at h
  cases h with
  | string h =>
    obtain ⟨parts, rfl⟩ := h.parts
    exact ⟨parts, rfl⟩
  | symbol h =>
    cases hk
    exact absurd rfl h
  | _ => cases hk

theorem lexeme_of_mem {t : Token} (h : .ok t ∈ tokenize text) (ht : t.kind ≠ .endOfInput) :
    Lexeme (some t.kind) t.lexeme.toList := by
  obtain ⟨ts, last, rest, stop, hitems, hcovers, hends⟩ := reads_itemsFrom 0 .start text.toList
  rw [tokenize, hitems] at h
  rcases List.mem_append.1 h with h | h
  · obtain ⟨u, hu, htu⟩ := List.mem_map.1 h
    cases htu
    obtain ⟨front, back, rfl⟩ := List.append_of_mem hu
    obtain ⟨after, -, hlexeme⟩ := hcovers.split
    exact hlexeme
  · obtain rfl := List.mem_singleton.1 h
    cases hends
    exact absurd rfl ht

theorem tokenize_quote (s : String) : tokenize (Text.quote s) =
    [.ok ⟨.string, Text.quote s, .start⟩,
      .ok ⟨.endOfInput, "", .behind (Text.quote s).toList⟩] := by
  let inside := s.toList.flatMap Text.escape ++ ['"']
  have hat : Piece.at? '"' (inside ++ []) = some ⟨some .string, inside.length⟩ := by
    rw [List.append_nil, Piece.at?_quote, Piece.closing?_escape]
    simp [inside]
  have htext : (Text.quote s).toList = '"' :: (inside ++ []) := by
    rw [Text.quote, String.toList_ofList, List.append_nil]
  rw [tokenize, htext, itemsFrom_token hat, List.append_nil, ← Position.start_afterAll]
  rfl

/-- The lexeme of a string is two quotes around parts, in one way only, and stands for what its
parts stand for, one after the other: whatever would become of a text that lacks a quote or ends
with a lone backslash, it does not come to that. Every string is written so, as one token. -/
theorem string_literals_exact (text s : String) :
    (∀ t, .ok t ∈ tokenize text → t.kind = .string → ∃ parts : List Text.Part,
      t.lexeme.toList = Text.quoted parts ∧
        (∀ parts', t.lexeme.toList = Text.quoted parts' → parts' = parts) ∧
        (Text.unescape t.lexeme).toList = parts.flatMap Text.Part.meaning ∧
        ∀ bare lone, Text.unescapeOr bare lone t.lexeme = Text.unescape t.lexeme) ∧
      tokenize (Text.quote s) = [.ok ⟨.string, Text.quote s, .start⟩,
        .ok ⟨.endOfInput, "", .behind (Text.quote s).toList⟩] ∧
      Text.unescape (Text.quote s) = s := by
  refine ⟨fun t ht hk => ?_, tokenize_quote s, Text.unescape_quote s⟩
  have hlexeme := lexeme_of_mem ht (by simp [hk])
  rw [hk] at hlexeme
  obtain ⟨parts, hparts⟩ := hlexeme.quoted
  have hdecoded := Text.unescapeOr_quoted id ['\\'] hparts
  rw [Text.unescapeOr_id] at hdecoded
  refine ⟨parts, hparts, fun parts' hparts' => ?_, ?_, fun bare lone => ?_⟩
  · exact Text.quoted_injective (hparts'.symm.trans hparts)
  · rw [hdecoded, String.toList_ofList]
  · rw [hdecoded, Text.unescapeOr_quoted bare lone hparts]

def oddLexeme : String :=
  "\"\\\\\\\\\n\n\\q\\n\\\"\""

theorem string_literals_exact_oddLexeme : ∃ parts : List Text.Part,
    oddLexeme.toList = Text.quoted parts ∧
      (Text.unescape oddLexeme).toList = parts.flatMap Text.Part.meaning ∧
      Text.unescape oddLexeme = "\\\\\n\n\\q\n\"" := by
  have hitems : tokenize ("print " ++ oddLexeme) = [.ok ⟨.identifier, "print", ⟨1, 1⟩⟩,
      .ok ⟨.string, oddLexeme, ⟨1, 7⟩⟩, .ok ⟨.endOfInput, "", ⟨3, 8⟩⟩] := by cbv
  have hmem : .ok ⟨.string, oddLexeme, ⟨1, 7⟩⟩ ∈ tokenize ("print " ++ oddLexeme) := by
    rw [hitems]
    exact .tail _ (.head _)
  obtain ⟨parts, hparts, -, hmeaning, -⟩ := (string_literals_exact _ "").1 _ hmem rfl
  exact ⟨parts, hparts, hmeaning, by cbv⟩

end Scriptlet
