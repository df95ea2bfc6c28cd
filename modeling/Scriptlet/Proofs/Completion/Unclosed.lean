import Scriptlet.Proofs.Grammar.ClauseCompleteness
import Scriptlet.Proofs.Grammar.Soundness
import Scriptlet.Proofs.Grammar.Extension

namespace Scriptlet
set_option autoImplicit true

/-- The errors of blocks that the input leaves open. -/
def SyntaxError.IsUnclosed : SyntaxError → Prop
  | .missingEnd _ _ | .missingFunctionEnd _ _ => True
  | _ => False

namespace Draft

section
variable {N : Nat} {all : List Token} {d : Draft} {t : Token} {phase : Phase} {e : SyntaxError}

theorem Takes.unclosed_stands (h : d.Takes (some N) t phase (.error e)) (hu : e.IsUnclosed)
    (hd : (d.goto phase).Spelled N all []) :
    ∃ reversed n b outer, Stands N all reversed n (b :: outer) [] := by
  cases h with
  | @unclosed outer b ht hb =>
    cases hd with
    | @between n hs =>
      have hs : Stands N all d.reversed n d.blocks [] := hs
      rw [hb] at hs
      exact ⟨d.reversed, n, b, outer, hs⟩
    | within _ hp => cases hp
  | _ => exact hu.elim

/-- Where a block is found open, the tokens in front of that place are finished statements but for
open blocks. -/
theorem Steps.unclosed_stands (h : Steps (some N) t d r) (hr : r = .error e) (hu : e.IsUnclosed)
    (hd : d.Spelled N all []) : ∃ reversed n b outer, Stands N all reversed n (b :: outer) [] := by
  induction h with
  | takes h =>
    subst hr
    exact h.unclosed_stands hu hd
  | passes h _ ih => exact ih hr (h.spelled hd fun u hu => by cases hu)

end

end Draft

section
variable {N n : Nat} {all ts mid here more : List Token} {stop : Token}

theorem Header.Spelled.head {header : Header} (h : header.Spelled n pos ts here) :
    ∃ t ts', ts = t :: ts' ∧ t.kind = .identifier := by
  induction h with
  | ifThen ht | loop ht | function ht => exact ⟨_, _, rfl, (Token.isKeyword_iff.1 ht).1⟩
  | ifElse hh hb hu ih => exact ih

theorem Header.Spelled.extend {header : Header} (h : header.Spelled n pos ts here)
    (hmore : Closed more) : header.Spelled n pos (ts ++ more) (here ++ more) := by
  induction h with
  | ifThen ht hc => exact .ifThen ht (hc.extend hmore)
  | ifElse hh hb hu ih => exact .ifElse ih (hb.extend hmore) hu
  | loop ht hc => exact .loop ht (hc.extend hmore)
  | function ht hf hu hxs hv => exact .function ht hf hu (hxs.extend more) hv

theorem Stands.extend (h : Stands N all reversed n blocks here) (hmore : Closed more) :
    Stands N (all ++ more) reversed n blocks (here ++ more) := by
  induction h with
  | outermost hss => exact .outermost (hss.extend hmore)
  | block ho hc hh hb ih =>
    obtain ⟨t, ts', rfl, -⟩ := hh.head
    exact .block ih hc (hh.extend hmore) (hb.extend hmore)

/-- As many ends as blocks are open make a program of what stands in front of them. -/
theorem Stands.mended (h : Stands N all reversed n blocks ends)
    (hends : ∀ t ∈ ends, t.isKeyword "end") (hlength : ends.length = blocks.length) :
    ∃ p, Program.SpelledBy N p all := by
  induction ends generalizing reversed n blocks with
  | nil =>
    obtain rfl := List.length_eq_zero_iff.1 hlength.symm
    cases h with
    | outermost hss => exact ⟨_, hss⟩
  | cons t ends ih =>
    obtain ⟨ht, hends⟩ := List.forall_mem_cons.1 hends
    cases h with
    | outermost hss => cases hlength
    | block ho hc hh hb =>
      refine ih (Draft.Starts.add (d := ⟨reversed, _, .statement⟩) ⟨ho, hc⟩ (hh.complete hb ht))
        hends ?_
      rw [Draft.length_add]
      exact Nat.succ.inj hlength

theorem Header.Spelled.isRead {header : Header} (hstop : stop.kind = .endOfInput)
    (h : header.Spelled (n + 1) pos ts mid) {d : Draft} (hd : d.blocks.length + (n + 1) ≤ N)
    (hc : ∀ t ∈ ts.head?, ¬ t.Closes (closersIn d.blocks)) (hm : Detached mid) :
    (d.goto .statement).outcome (some N) stop ts =
      (d.goto (.block pos header)).outcome (some N) stop mid := by
  generalize hn : n + 1 = m at h
  induction h with
  | ifThen ht hcond =>
    subst hn
    exact Draft.outcome_keyword hstop ht rfl hc hd hcond hm _ fun u => rfl
  | @ifElse n' pos c ts mid body u here hh hb hu ih =>
    obtain rfl := Nat.succ.inj hn
    have hthen := (Clause.Spells.isRead (N := N) hstop hb).block (.ifThen c) rfl hd
      (Token.isKeyword_iff.1 hu).1 pos
    have helse := Draft.step_else hu (some N) d pos c body.reverse
    rw [ih hc (hb.detached (.keyword hu here)) hn, hthen, Draft.outcome_cons helse,
      List.reverse_reverse]
  | loop ht hcond =>
    subst hn
    exact Draft.outcome_keyword hstop ht rfl hc hd hcond hm _ fun u => rfl
  | @function _ xs ts v here t f u ht hf hu hxs hv =>
    have hs : (d.goto .statement).step (some N) t =
        .ok (.more (d.goto (.functionName t.position))) := Draft.step_keyword ht (hc t rfl) (some N)
    have hname : (d.goto (.functionName t.position)).step (some N) f =
        .ok (.more (d.goto (.functionParen t.position f.lexeme))) := by
      simp [Draft.step, Draft.goto, Draft.name, hf]
    have hparen : (d.goto (.functionParen t.position f.lexeme)).step (some N) u =
        .ok (.more (d.goto (.firstParameter t.position f.lexeme))) := by
      simp [Draft.step, Draft.goto, Draft.punctuation, hu]
    rw [Draft.outcome_cons hs, Draft.outcome_cons hname, Draft.outcome_cons hparen,
      Draft.outcome_parameters hxs hv]

theorem Stands.isRead (hstop : stop.kind = .endOfInput) (h : Stands N all reversed n blocks here)
    (hr : Detached here) : Draft.empty.outcome (some N) stop all =
      (Draft.mk reversed blocks .statement).outcome (some N) stop here := by
  induction h with
  | @outermost here hss =>
    have hroom : Draft.empty.blocks.length + N ≤ N := Nat.le_of_eq (Nat.zero_add N)
    have hread := hss.isRead hstop Draft.empty rfl hroom hr
    have hfold := Draft.foldl_add_nil [] reversed.reverse
    rw [List.append_nil, List.reverse_reverse] at hfold
    exact hread.trans (congrArg (·.outcome (some N) stop here) hfold)
  | @block n outer ts mid here pos header body ho hc hh hb ih =>
    let outside : Draft := ⟨reversed, outer, .statement⟩
    have hroom : outside.blocks.length + (n + 1) ≤ N := by
      have hlevels := ho.room
      simp only [outside]
      omega
    have hmid : Detached mid := hb.detached hr
    have hts : Detached ts := by
      obtain ⟨t, ts', rfl, ht⟩ := hh.head
      exact .identifier ht ts'
    have hheader := hh.isRead hstop hroom hc hmid
    have hinside : (outside.openBlock pos header).blocks.length + n ≤ N := by
      simp only [Draft.openBlock, List.length_cons]
      omega
    have hbody := hb.isRead hstop (outside.openBlock pos header) rfl hinside hr
    have hblock := Draft.step_block (N := N) (d := outside) (by omega) pos header
    have hfold := outside.openBlock_addAll pos header body.reverse
    rw [List.reverse_reverse] at hfold
    calc Draft.empty.outcome (some N) stop all
      _ = (outside.goto .statement).outcome (some N) stop ts := ih hts
      _ = (outside.goto (.block pos header)).outcome (some N) stop mid := hheader
      _ = (outside.openBlock pos header).outcome (some N) stop mid :=
        Draft.outcome_congr (hblock _)
      _ = (body.reverse.foldl Draft.add (outside.openBlock pos header)).outcome (some N) stop
          here := hbody
      _ = _ := congrArg (·.outcome (some N) stop here) hfold

end

end Scriptlet
