import P2PServer.ByteStrings

/-! A text that is read line by line: each line is handed to a function without its newline, and
the last line may lack one. -/
namespace TextLines

def newline : UInt8 := 0x0a

variable {σ : Type*} (f : σ → List UInt8 → σ)

/-- `while (pos < content.size())`: every pass takes one line off the content. -/
def loop : ℕ → List UInt8 → σ → σ
  | 0, _, s => s
  | fuel + 1, content, s =>
    if content.isEmpty then s
    else
      let line := content.takeWhile (· != newline)
      loop fuel (content.drop (line.length + 1)) (f s line)

def run (content : List UInt8) (s : σ) : σ := loop f content.length content s

variable {f}

/-- Every pass consumes at least one byte. -/
theorem loop_fuel {fuel : ℕ} {content : List UInt8} (h : content.length ≤ fuel) (s : σ) :
    loop f fuel content s = run f content s := by
  induction fuel using Nat.strong_induction_on generalizing content s with
  | _ fuel ih =>
    cases content with
    | nil => cases fuel <;> rfl
    | cons c cs =>
      cases fuel with
      | zero => simp at h
      | succ fuel =>
        have hlen : ∀ n, ((c :: cs).drop (n + 1)).length ≤ cs.length := by
          intro n
          rw [List.drop_succ_cons, List.length_drop]
          omega
        rw [List.length_cons] at h
        rw [run, List.length_cons]
        simp only [loop, List.isEmpty_cons, Bool.false_eq_true, if_false]
        rw [ih fuel (by omega) ((hlen _).trans (by omega)), ih cs.length (by omega) (hlen _)]

@[simp] theorem run_nil (s : σ) : run f [] s = s := rfl

theorem run_cut {content : List UInt8} (h : content ≠ []) (s : σ) : run f content s =
    run f (content.drop ((content.takeWhile (· != newline)).length + 1))
      (f s (content.takeWhile (· != newline))) := by
  obtain ⟨c, cs, rfl⟩ := List.exists_cons_of_ne_nil h
  have hlen : ((c :: cs).drop (((c :: cs).takeWhile (· != newline)).length + 1)).length ≤ cs.length := by
    rw [List.drop_succ_cons, List.length_drop]
    omega
  rw [← loop_fuel hlen]
  rfl

theorem run_line {line : List UInt8} (h : newline ∉ line) (rest : List UInt8) (s : σ) :
    run f (line ++ newline :: rest) s = run f rest (f s line) := by
  have htake : (line ++ newline :: rest).takeWhile (· != newline) = line :=
    ByteStrings.takeWhile_ne_cons h rest
  have hdrop : (line ++ newline :: rest).drop (line.length + 1) = rest := by
    rw [List.drop_append]
    simp
  rw [run_cut (by simp), htake, hdrop]

theorem run_lines {lines : List (List UInt8)} (h : ∀ l ∈ lines, newline ∉ l) (rest : List UInt8) (s : σ) :
    run f ((lines.map (· ++ [newline])).flatten ++ rest) s = run f rest (lines.foldl f s) := by
  induction lines generalizing s with
  | nil => rfl
  | cons line lines ih =>
    have happ : ((line :: lines).map (· ++ [newline])).flatten ++ rest =
        line ++ newline :: ((lines.map (· ++ [newline])).flatten ++ rest) := by simp
    rw [happ, run_line (h line List.mem_cons_self), ih fun l hl => h l (List.mem_cons_of_mem line hl)]
    rfl

theorem run_invariant {P : σ → Prop} (hf : ∀ s line, newline ∉ line → P s → P (f s line)) (content : List UInt8)
    {s : σ} (h : P s) : P (run f content s) := by
  have hloop (fuel : ℕ) (content : List UInt8) (s : σ) (h : P s) : P (loop f fuel content s) := by
    induction fuel generalizing content s with
    | zero => exact h
    | succ fuel ih =>
      unfold loop
      split
      · exact h
      · exact ih _ _ (hf _ _ (fun hmem => absurd (List.mem_takeWhile_imp hmem) (by simp)) h)
  exact hloop _ _ _ h

end TextLines
