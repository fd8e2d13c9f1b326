import P2PServer.CfgLines
import P2PServer.ProxyCandidates

/-! The addresses of the configuration. `valid_ip` scans the groups between the dots, and tests only the
last one for being empty. -/
namespace P2PServer.CfgFile
open ByteStrings Net Decimals ProxyCandidates

def groups (ip : Bytes) : List Bytes := ip.splitOn dot

/-- What the scanner finds out about every group. -/
structure Scanned (g : Bytes) : Prop where
  digits : ∀ c ∈ g, isDigit c = true
  short : g.length ≤ 3
  small : digitsValue g ≤ 255

/-- Four groups of one to three decimal digits, each of value at most 255, separated by single dots. -/
def IsQuad (ip : Bytes) : Prop := (groups ip).length = 4 ∧ ∀ g ∈ groups ip, Scanned g ∧ g ≠ []

/-- Four groups that pass the scanner, the last one not empty but one of the others. -/
structure Gapped (ip : Bytes) : Prop where
  four : (groups ip).length = 4
  scanned : ∀ g ∈ groups ip, Scanned g
  last : (groups ip).getLast? ≠ some []
  gap : [] ∈ groups ip

/-- The value of more digits. -/
def valueFrom (v : ℕ) (g : Bytes) : ℕ := g.foldl (fun v b => v * 10 + (b.toNat - 0x30)) v

theorem le_valueFrom (v : ℕ) (g : Bytes) : v ≤ valueFrom v g := by
  induction g generalizing v with
  | nil => exact le_rfl
  | cons c g ih =>
    have hc := ih (v * 10 + (c.toNat - 0x30))
    change v ≤ valueFrom (v * 10 + (c.toNat - 0x30)) g
    omega

theorem scan_group {g : Bytes} (hg : dot ∉ g) {seg num : ℕ} (dots : ℕ) (hseg : seg ≤ 3) (hnum : num ≤ 255)
    (st : ℕ × ℕ × ℕ) : g.foldl validIpStep (some (seg, num, dots)) = some st ↔
      ((∀ c ∈ g, isDigit c = true) ∧ seg + g.length ≤ 3 ∧ valueFrom num g ≤ 255) ∧
        st = (seg + g.length, valueFrom num g, dots) := by
  induction g generalizing seg num with
  | nil =>
    have hkept : ((∀ c ∈ ([] : Bytes), isDigit c = true) ∧ seg + 0 ≤ 3 ∧ num ≤ 255) := ⟨by simp, hseg, hnum⟩
    constructor
    · intro h
      exact ⟨hkept, (Option.some.inj h).symm⟩
    · intro h
      exact congrArg some h.2.symm
  | cons c g ih =>
    rw [List.mem_cons, not_or] at hg
    obtain ⟨hdot, hg⟩ := hg
    have hvalue : valueFrom num (c :: g) = valueFrom (num * 10 + (c.toNat - 0x30)) g := rfl
    have hlen : seg + (c :: g).length = seg + 1 + g.length := by
      rw [List.length_cons]
      omega
    rw [List.foldl_cons, hvalue, hlen, List.forall_mem_cons]
    have hstep : validIpStep (some (seg, num, dots)) c =
        if isDigit c = true ∧ num * 10 + (c.toNat - 0x30) ≤ 255 ∧ seg + 1 ≤ 3 then
          some (seg + 1, num * 10 + (c.toNat - 0x30), dots) else none := by
      by_cases hdigit : isDigit c = true
      · have hrange : 0x30 ≤ c ∧ c ≤ 0x39 := by simpa [isDigit] using hdigit
        simp only [validIpStep, if_neg (Ne.symm hdot), if_pos hrange, hdigit, true_and]
        by_cases hbig : num * 10 + (c.toNat - 0x30) > 255
        · rw [if_pos hbig, if_neg (by omega)]
        · rw [if_neg hbig]
          by_cases hfull : seg + 1 > 3
          · rw [if_pos hfull, if_neg (by omega)]
          · rw [if_neg hfull, if_pos (by omega)]
      · have hrange : ¬(0x30 ≤ c ∧ c ≤ 0x39) := by simpa [isDigit] using hdigit
        simp only [validIpStep, if_neg (Ne.symm hdot), if_neg hrange, if_neg (not_and.mpr fun h => absurd h hdigit)]
    rw [hstep]
    split
    · rename_i hok
      obtain ⟨hdigit, hsmall, hroom⟩ := hok
      rw [ih hg hroom hsmall]
      simp only [hdigit, true_and]
    · rename_i hbad
      rw [foldl_validIpStep_none]
      refine iff_of_false (by simp) fun h => hbad ⟨h.1.1.1, ?_, by omega⟩
      exact (le_valueFrom _ g).trans h.1.2.2

theorem scanned_iff {g : Bytes} (hg : dot ∉ g) (dots : ℕ) (st : ℕ × ℕ × ℕ) :
    g.foldl validIpStep (some (0, 0, dots)) = some st ↔
      Scanned g ∧ st = (g.length, digitsValue g, dots) := by
  rw [scan_group hg dots (by decide) (by decide), Nat.zero_add]
  exact and_congr_left' ⟨fun h => ⟨h.1, h.2.1, h.2.2⟩, fun h => ⟨h.digits, h.short, h.small⟩⟩

theorem groups_single {g : Bytes} (h : dot ∉ g) : groups g = [g] := List.splitOn_eq_singleton h

theorem groups_cons {g : Bytes} (h : dot ∉ g) (rest : Bytes) :
    groups (g ++ dot :: rest) = g :: groups rest := List.splitOn_append_cons_self_of_not_mem h rest

theorem groups_ne_nil (ip : Bytes) : groups ip ≠ [] := List.splitOn_ne_nil dot ip

/-- The scanner ends with the length and the value of the last group and the number of dots. -/
theorem scan_groups (ip : Bytes) (dots : ℕ) (st : ℕ × ℕ × ℕ) :
    ip.foldl validIpStep (some (0, 0, dots)) = some st ↔ (∀ g ∈ groups ip, Scanned g) ∧
      ∃ last, (groups ip).getLast? = some last ∧
        st = (last.length, digitsValue last, dots + ((groups ip).length - 1)) := by
  induction hn : ip.length using Nat.strong_induction_on generalizing ip dots with
  | _ n ih =>
    by_cases hdot : dot ∈ ip
    · obtain ⟨g, rest, rfl, hg⟩ := List.eq_append_cons_of_mem hdot
      have hshort : rest.length < n := by
        rw [← hn]
        simp
        omega
      have hcount : dots + 1 + ((groups rest).length - 1) = dots + (groups rest).length := by
        have := List.length_pos_of_ne_nil (groups_ne_nil rest)
        omega
      have hend : (g :: groups rest).getLast? = (groups rest).getLast? :=
        List.getLast?_cons_of_ne_nil (groups_ne_nil rest)
      rw [groups_cons hg, List.foldl_append, List.foldl_cons, List.forall_mem_cons, hend, List.length_cons,
        Nat.add_sub_cancel, ← hcount]
      cases hscan : g.foldl validIpStep (some (0, 0, dots)) with
      | none =>
        have hstep : validIpStep none dot = none := rfl
        rw [hstep, foldl_validIpStep_none]
        refine iff_of_false (by simp) fun h => ?_
        have := (scanned_iff hg dots _).mpr ⟨h.1.1, rfl⟩
        rw [hscan] at this
        cases this
      | some st' =>
        obtain ⟨hscanned, rfl⟩ := (scanned_iff hg dots st').mp hscan
        have hstep : validIpStep (some (g.length, digitsValue g, dots)) dot = some (0, 0, dots + 1) := rfl
        rw [hstep, ih rest.length hshort rest (dots + 1) rfl, and_iff_right hscanned]
    · rw [groups_single hdot, scanned_iff hdot]
      simp

theorem length_of_scanned {ip : Bytes} (h4 : (groups ip).length = 4) (h : ∀ g ∈ groups ip, Scanned g) :
    ip ≠ [] ∧ ip.length ≤ 15 := by
  have hjoin : [dot].intercalate (groups ip) = ip := List.intercalate_splitOn dot
  obtain ⟨a, b, c, d, hg⟩ := List.length_eq_four.mp h4
  rw [hg] at h hjoin
  have ha := (h a (by simp)).short
  have hb := (h b (by simp)).short
  have hc := (h c (by simp)).short
  have hd := (h d (by simp)).short
  have hlen : ip.length = a.length + b.length + c.length + d.length + 3 := by
    rw [← hjoin]
    simp [List.intercalate]
    omega
  refine ⟨fun hnil => ?_, by omega⟩
  rw [hnil] at hlen
  simp at hlen

/-- Every group is scanned, but only the last one must not be empty. -/
theorem validIp_iff (ip : Bytes) : validIp ip = true ↔ (groups ip).length = 4 ∧
    (∀ g ∈ groups ip, Scanned g) ∧ (groups ip).getLast? ≠ some [] := by
  have hcount := List.length_pos_of_ne_nil (groups_ne_nil ip)
  unfold validIp
  split
  · rename_i hout
    refine iff_of_false Bool.false_ne_true fun h => ?_
    obtain ⟨hne, hshort⟩ := length_of_scanned h.1 h.2.1
    rcases hout with hempty | hlong
    · exact hne (List.isEmpty_iff.mp hempty)
    · omega
  · split
    · rename_i seg num dots hscan
      obtain ⟨hscanned, last, hlast, hst⟩ := (scan_groups ip 0 _).mp hscan
      cases hst
      have hdots : 0 + ((groups ip).length - 1) = 3 ↔ (groups ip).length = 4 := by omega
      have hnonempty : last.length > 0 ↔ last ≠ [] := List.length_pos_iff
      simp only [Bool.and_eq_true, beq_iff_eq, decide_eq_true_eq, hdots, hnonempty, hlast, ne_eq,
        Option.some.injEq, and_iff_right hscanned]
    · rename_i hscan
      refine iff_of_false Bool.false_ne_true fun h => ?_
      have hsome := (scan_groups ip 0 _).mpr ⟨h.2.1, _, List.getLast?_eq_some_getLast (groups_ne_nil ip), rfl⟩
      rw [hscan] at hsome
      cases hsome

theorem IsQuad.valid {ip : Bytes} (h : IsQuad ip) : validIp ip = true := by
  refine (validIp_iff ip).mpr ⟨h.1, fun g hg => (h.2 g hg).1, fun hlast => ?_⟩
  exact (h.2 [] (List.mem_of_getLast? hlast)).2 rfl

/-- What the scanner takes without being a quad. -/
theorem gapped_iff (ip : Bytes) : Gapped ip ↔ validIp ip = true ∧ ¬IsQuad ip := by
  rw [validIp_iff]
  constructor
  · intro h
    exact ⟨⟨h.four, h.scanned, h.last⟩, fun hquad => (hquad.2 [] h.gap).2 rfl⟩
  · rintro ⟨⟨hfour, hscanned, hlast⟩, hnot⟩
    refine ⟨hfour, hscanned, hlast, ?_⟩
    by_contra hgap
    refine hnot ⟨hfour, fun g hg => ⟨hscanned g hg, ?_⟩⟩
    rintro rfl
    exact hgap hg

theorem validIp_quad_iff (ip : Bytes) : (validIp ip = true ↔ IsQuad ip) ↔ ¬Gapped ip := by
  rw [gapped_iff, not_and, not_not]
  exact ⟨fun h => h.mp, fun h => ⟨h, IsQuad.valid⟩⟩

theorem isQuad_localhost : IsQuad localhost := by
  have hvalid : validIp localhost = true := by decide
  obtain ⟨hfour, hscanned, -⟩ := (validIp_iff localhost).mp hvalid
  have hfull : [] ∉ groups localhost := by decide
  refine ⟨hfour, fun g hg => ⟨hscanned g hg, ?_⟩⟩
  rintro rfl
  exact hfull hg

theorem addresses_filled (fresh : CfgFile) :
    (∀ ip ∈ addresses (filled fresh), IsQuad ip) ↔ ∀ ip ∈ addresses fresh, IsQuad ip := by
  have hlist (ips : List Bytes) : (∀ ip ∈ if ips.isEmpty then [localhost] else ips, IsQuad ip) ↔
      ∀ ip ∈ ips, IsQuad ip := by
    split
    · rename_i hnil
      rw [List.isEmpty_iff.mp hnil]
      simpa using isQuad_localhost
    · exact Iff.rfl
  unfold addresses filled
  rw [List.forall_mem_append, List.forall_mem_append, hlist, hlist]

/-- The addresses of a configuration are quads exactly if no value of a server or a proxy has a gap. -/
theorem loadServerSet_quads_iff (out : CfgFile) (path : Bytes) (file : Option Bytes) :
    (∀ ip ∈ addresses (loadServerSet out path file).2, IsQuad ip) ↔
      ∀ content, file = some content → ∀ a ∈ given content, namesAddress a.1 → ¬Gapped (host a.2) := by
  cases file with
  | none =>
    refine iff_of_true (fun ip hip => ?_) fun content h => by cases h
    rw [List.mem_pair.mp hip |>.elim id id]
    exact isQuad_localhost
  | some content =>
    have hfresh (ip : Bytes) : ip ∉ addresses { cfgPath := path } := List.not_mem_nil
    rw [loadServerSet_some, addresses_filled]
    simp only [mem_addresses_foldl, hfresh, false_or, Option.some.injEq, forall_eq', gapped_iff]
    constructor
    · intro h a ha hkey hgap
      exact hgap.2 (h _ ⟨a, ha, ⟨hkey, hgap.1⟩, rfl⟩)
    · rintro h ip ⟨a, ha, ⟨hkey, hvalid⟩, rfl⟩
      by_contra hnot
      exact h a ha hkey ⟨hvalid, hnot⟩

/-- The addresses of the program are dotted quads exactly where no text has a gap: four groups that the
scanner takes, with one in front of the last that is empty. -/
theorem quads_iff (ip input : Bytes) (out : CfgFile) (path : Bytes) (file : Option Bytes) :
    ((validIp ip = true ↔ IsQuad ip) ↔ ¬Gapped ip) ∧
    ((splitIpPort input).2.1 = host input ∧
      (((splitIpPort input).1 = true ↔ IsQuad (host input)) ↔ ¬Gapped (host input))) ∧
    ((∀ kept ∈ addresses (loadServerSet out path file).2, IsQuad kept) ↔
      ∀ content, file = some content → ∀ a ∈ given content, namesAddress a.1 → ¬Gapped (host a.2)) := by
  obtain ⟨hok, hip⟩ := splitIpPort_host input
  rw [hok]
  exact ⟨validIp_quad_iff ip, ⟨hip, validIp_quad_iff _⟩, loadServerSet_quads_iff out path file⟩

/-- The second group of `1..2.3` is empty. -/
theorem validIp_not_quad : ¬∀ ip : Bytes, validIp ip = true ↔ IsQuad ip := by
  intro h
  have hquad := (h (ascii "1..2.3")).mp (by decide)
  have hgap : ([] : Bytes) ∈ groups (ascii "1..2.3") := by decide
  exact (hquad.2 [] hgap).2 rfl

end P2PServer.CfgFile
