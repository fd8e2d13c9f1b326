import P2PServer.CfgFile
import P2PServer.Chunks

/-! The configuration as a fold over the lines of the file. The file is read through a buffer of 512
bytes, so a longer line reaches the parser in pieces. -/
namespace P2PServer.CfgFile
open ByteStrings Chunks

/-- The key and the value of a line that has them. -/
def assignment (line : Bytes) : Option (Bytes × Bytes) :=
  let s := trim line
  if s.isEmpty ∨ s.head? = some hash ∨ equals ∉ s then none
  else
    let key := trim (s.takeWhile (· != equals))
    if key.isEmpty then none else some (key, trim (s.drop ((s.takeWhile (· != equals)).length + 1)))

def assign (out : CfgFile) (a : Bytes × Bytes) : CfgFile := parseValue out a.1 a.2

def lines (content : Bytes) : List Bytes := content.splitOn newline

/-- Empty lists of servers are filled in. -/
def filled (fresh : CfgFile) : CfgFile :=
  { fresh with
    natIps := if fresh.natIps.isEmpty then [localhost] else fresh.natIps
    proxyIps := if fresh.proxyIps.isEmpty then [localhost] else fresh.proxyIps
    loaded := true }

def folded (path content : Bytes) : CfgFile :=
  filled (((lines content).filterMap assignment).foldl assign { cfgPath := path })

def items (val : Bytes) : List Bytes := (val.splitOn comma).filter (!·.isEmpty)

/-- The pieces in which a line is read. -/
def pieces (line : Bytes) : List Bytes := records 511 (line.length / 511 + 1) line

/-- The pieces of the line hold its key and value and no others. -/
def Whole (line : Bytes) : Prop := (pieces line).filterMap assignment = (assignment line).toList

instance (line : Bytes) : Decidable (Whole line) := inferInstanceAs (Decidable (_ = _))

theorem assignment_nil : assignment [] = none := rfl

theorem trim_newline (line : Bytes) : trim (line ++ [newline]) = trim line := by
  rw [trim, trim, List.rdropWhile_concat_pos _ _ _ (by decide)]

theorem assignment_newline (line : Bytes) : assignment (line ++ [newline]) = assignment line := by
  rw [assignment, assignment, trim_newline]

theorem takeWhile_length_lt {s : Bytes} {c : UInt8} : (s.takeWhile (· != c)).length < s.length ↔ c ∈ s := by
  constructor
  · intro h
    by_contra hc
    rw [takeWhile_ne_self hc] at h
    exact lt_irrefl _ h
  · intro h
    refine lt_of_le_of_ne (List.IsPrefix.length_le ( List.takeWhile_prefix _)) fun heq => ?_
    have hall := List.IsPrefix.eq_of_length ( List.takeWhile_prefix (· != c)) heq
    have hc := List.takeWhile_eq_self_iff.mp hall c h
    simp at hc

theorem parseLine_eq (out : CfgFile) {line : Bytes} (h : 0 ∉ line) :
    parseLine out line = (assignment line).toList.foldl assign out := by
  unfold parseLine assignment
  rw [cstr_eq_self h]
  dsimp only
  by_cases hskip : (trim line).isEmpty ∨ (trim line).head? = some hash
  · rw [if_pos hskip, if_pos (by tauto)]
    rfl
  · rw [if_neg hskip]
    by_cases heq : equals ∈ trim line
    · have hkeep : ¬((trim line).isEmpty ∨ (trim line).head? = some hash ∨ equals ∉ trim line) := by tauto
      rw [if_pos (takeWhile_length_lt.mpr heq), if_neg hkeep]
      split <;> rfl
    · rw [if_neg (takeWhile_length_lt.not.mpr heq), if_pos (by tauto)]
      rfl

theorem whole_of_short {line : Bytes} (h : line.length ≤ 511) : Whole line := by
  unfold Whole pieces
  rcases h.lt_or_eq with hlt | heq
  · rw [Nat.div_eq_of_lt hlt, records, records, List.take_of_length_le h]
    cases ha : assignment line <;> simp [ha]
  · rw [heq, records, records, records, List.take_of_length_le h, List.drop_eq_nil_of_le h]
    cases ha : assignment line <;> simp [ha, assignment_nil]

theorem fgets_length_pos {content : Bytes} (h : content ≠ []) : 0 < (fgets content).length := by
  have hlen := List.length_pos_of_ne_nil h
  rw [fgets, List.length_take]
  omega

theorem parseLoop_fuel {fuel : ℕ} {content : Bytes} (h : content.length ≤ fuel) (out : CfgFile) :
    parseLoop fuel content out = parseLoop content.length content out := by
  induction fuel using Nat.strong_induction_on generalizing content out with
  | _ fuel ih =>
    by_cases hne : content = []
    · subst hne
      cases fuel <;> rfl
    · have hpos := List.length_pos_of_ne_nil hne
      have hread := fgets_length_pos hne
      obtain ⟨k, rfl⟩ := Nat.exists_eq_add_of_le' (show 1 ≤ fuel by omega)
      obtain ⟨n, hn⟩ := Nat.exists_eq_add_of_le' hpos
      have hdrop : (content.drop (fgets content).length).length ≤ n := by
        rw [List.length_drop]
        omega
      rw [hn, parseLoop, parseLoop, if_neg (by simpa using hne), if_neg (by simpa using hne),
        ih k (by omega) (by omega), ih n (by omega) hdrop]

def reads (content : Bytes) (out : CfgFile) : CfgFile := parseLoop content.length content out

theorem reads_step {content : Bytes} (h : content ≠ []) (out : CfgFile) :
    reads content out = reads (content.drop (fgets content).length) (parseLine out (fgets content)) := by
  have hpos := List.length_pos_of_ne_nil h
  have hread := fgets_length_pos h
  obtain ⟨n, hn⟩ := Nat.exists_eq_add_of_le' hpos
  rw [reads, reads, hn, parseLoop, if_neg (by simpa using h), parseLoop_fuel]
  rw [List.length_drop]
  omega

/-- What follows a line. -/
def Ends (tail : Bytes) : Prop := tail = [] ∨ ∃ rest, tail = newline :: rest

theorem reads_short {line tail : Bytes} (h : newline ∉ line) (h0 : 0 ∉ line) (htail : Ends tail)
    (hlt : line.length < 511) (out : CfgFile) :
    reads (line ++ tail) out = reads (tail.drop 1) ((assignment line).toList.foldl assign out) := by
  have hget : fgets (line ++ tail) = line ++ tail.take 1 := by
    rw [fgets, takeWhile_ne_append h htail, min_eq_right (by omega), List.take_append,
      List.take_of_length_le (by omega), Nat.add_sub_cancel_left]
  rcases htail with rfl | ⟨rest, rfl⟩
  · by_cases hne : line = []
    · subst hne
      rfl
    · rw [reads_step (by simpa using hne), hget, List.take_nil, List.append_nil, List.drop_length,
        parseLine_eq out h0]
      rfl
  · have h0' : 0 ∉ line ++ [newline] := by
      simp only [List.mem_append, List.mem_singleton, not_or]
      exact ⟨h0, by decide⟩
    have hdrop : (line ++ newline :: rest).drop (line ++ [newline]).length = rest := by
      rw [List.append_cons line newline rest, List.drop_left]
    rw [reads_step (by simp), hget]
    change reads ((line ++ newline :: rest).drop (line ++ [newline]).length)
      (parseLine out (line ++ [newline])) = _
    rw [hdrop, parseLine_eq out h0', assignment_newline]
    rfl

theorem reads_line {line tail : Bytes} (h : newline ∉ line) (h0 : 0 ∉ line) (htail : Ends tail) (out : CfgFile) :
    reads (line ++ tail) out =
      reads (tail.drop 1) (((pieces line).filterMap assignment).foldl assign out) := by
  unfold pieces
  induction hk : line.length / 511 generalizing line out with
  | zero =>
    have hlt : line.length < 511 := by omega
    rw [reads_short h h0 htail hlt, records, records, List.take_of_length_le hlt.le]
    cases ha : assignment line <;> simp [ha]
  | succ k ih =>
    have hle : 511 ≤ line.length := by omega
    have hget : fgets (line ++ tail) = line.take 511 := by
      rw [fgets, takeWhile_ne_append h htail, min_eq_left (by omega), List.take_append_of_le_length hle]
    have hrest : (line.drop 511).length / 511 = k := by
      rw [List.length_drop]
      omega
    have hne : line ++ tail ≠ [] := by
      intro hnil
      rw [(List.append_eq_nil_iff.mp hnil).1] at hle
      simp at hle
    have hdrop : (line ++ tail).drop (line.take 511).length = line.drop 511 ++ tail := by
      rw [List.length_take, min_eq_left hle, List.drop_append_of_le_length hle]
    have hline' : newline ∉ line.drop 511 := fun hm => h (List.mem_of_mem_drop hm)
    have hrun := ih hline' (fun hm => h0 (List.mem_of_mem_drop hm)) (parseLine out (line.take 511)) hrest
    rw [reads_step hne, hget, hdrop, hrun, parseLine_eq out fun hm => h0 (List.mem_of_mem_take hm),
      ← List.foldl_append]
    change _ = reads _ (((line.take 511 :: records 511 (k + 1) (line.drop 511)).filterMap assignment).foldl _ _)
    cases ha : assignment (line.take 511) <;> simp [ha]

/-- The loop is a fold over the pieces of all lines. -/
theorem reads_eq {content : Bytes} (h0 : 0 ∉ content) (out : CfgFile) :
    reads content out = ((lines content).flatMap fun line => (pieces line).filterMap assignment).foldl assign out := by
  induction hn : content.length using Nat.strong_induction_on generalizing content out with
  | _ n ih =>
    by_cases hline : newline ∈ content
    · obtain ⟨line, rest, rfl, hfirst⟩ := List.eq_append_cons_of_mem hline
      have hrest : 0 ∉ rest := fun hm => h0 (by simp [hm])
      have hshort : rest.length < n := by
        rw [← hn]
        simp
        omega
      rw [reads_line hfirst (fun hm => h0 (by simp [hm])) (.inr ⟨rest, rfl⟩), lines,
        List.splitOn_append_cons_self_of_not_mem hfirst, List.flatMap_cons, List.foldl_append]
      exact ih rest.length hshort hrest _ rfl
    · have hrun := reads_line hline h0 (.inl rfl) out
      rw [List.append_nil] at hrun
      rw [hrun, lines, List.splitOn_eq_singleton hline]
      simp only [List.flatMap_cons, List.flatMap_nil, List.append_nil]
      rfl

theorem parseFile_eq (path content : Bytes) :
    parseFile path (some content) = some (filled (reads content { cfgPath := path })) := rfl

theorem trim_trim (s : Bytes) : trim (trim s) = trim s := by
  have hback : (trim s).rdropWhile isBlank = trim s := by
    rw [List.rdropWhile_eq_self_iff]
    intro hne
    have hsuffix : trim s <:+ s.rdropWhile isBlank := List.dropWhile_suffix isBlank
    rw [hsuffix.getLast hne]
    exact List.rdropWhile_last_not isBlank s _
  rw [trim, hback]
  exact List.dropWhile_idempotent isBlank _

def host (input : Bytes) : Bytes := trim ((trim input).takeWhile (· != colon))

theorem splitIpPort_host (input : Bytes) :
    (splitIpPort input).1 = validIp (host input) ∧ (splitIpPort input).2.1 = host input := by
  unfold splitIpPort host
  dsimp only
  split
  · exact ⟨rfl, rfl⟩
  · rename_i hall
    rw [takeWhile_length_lt] at hall
    rw [takeWhile_ne_self hall, trim_trim]
    exact ⟨rfl, rfl⟩

def addresses (cfg : CfgFile) : List Bytes := cfg.natIps ++ cfg.proxyIps

/-- The keys of servers and proxies. -/
def namesAddress (key : Bytes) : Prop :=
  (ascii "NatServer").isPrefixOf key = true ∨ (ascii "Proxy").isPrefixOf key = true

def chunks : ℕ → Bytes → List Bytes
  | 0, _ => []
  | fuel + 1, content =>
    if content.isEmpty then []
    else fgets content :: chunks fuel (content.drop (fgets content).length)

/-- The keys and values that are read from a file. -/
def given (content : Bytes) : List (Bytes × Bytes) :=
  (chunks content.length content).filterMap fun line => assignment (cstr line)

theorem parseLine_given (out : CfgFile) (line : Bytes) :
    parseLine out line = (assignment (cstr line)).toList.foldl assign out := by
  have hcut : parseLine out line = parseLine out (cstr line) := by
    rw [parseLine, parseLine, Net.cstr_cstr]
  have hterminated : 0 ∉ cstr line := fun h => absurd (List.mem_takeWhile_imp h) (by decide)
  rw [hcut, parseLine_eq out hterminated]

theorem parseLoop_given (fuel : ℕ) (content : Bytes) (out : CfgFile) : parseLoop fuel content out =
    ((chunks fuel content).filterMap fun line => assignment (cstr line)).foldl assign out := by
  induction fuel generalizing content out with
  | zero => rfl
  | succ fuel ih =>
    rw [parseLoop, chunks]
    split
    · rfl
    · rw [ih, parseLine_given]
      cases ha : assignment (cstr (fgets content)) <;> simp [ha]

/-- A value adds its address under a key of a server or a proxy, if the address is valid. -/
theorem mem_addresses_assign (out : CfgFile) (a : Bytes × Bytes) (ip : Bytes) :
    ip ∈ addresses (assign out a) ↔
      ip ∈ addresses out ∨ (namesAddress a.1 ∧ validIp (host a.2) = true) ∧ ip = host a.2 := by
  obtain ⟨key, val⟩ := a
  obtain ⟨hok, hip⟩ := splitIpPort_host val
  unfold assign namesAddress addresses
  dsimp only
  by_cases hnat : (ascii "NatServer").isPrefixOf key = true
  · rw [parseValue, if_pos hnat]
    dsimp only
    rw [hok, hip]
    split
    · rename_i hvalid
      simp only [List.mem_append, List.mem_singleton, hnat, hvalid, true_or, and_self, true_and]
      exact or_right_comm
    · rename_i hvalid
      simp [hvalid]
  · by_cases hproxy : (ascii "Proxy").isPrefixOf key = true
    · rw [parseValue, if_neg hnat, if_pos hproxy]
      dsimp only
      rw [hok, hip]
      split
      · rename_i hvalid
        simp only [List.mem_append, List.mem_singleton, hproxy, hvalid, or_true, and_self, true_and]
        exact or_assoc.symm
      · rename_i hvalid
        simp [hvalid]
    · have hsame : (parseValue out key val).natIps = out.natIps ∧
          (parseValue out key val).proxyIps = out.proxyIps := by
        simp only [parseValue, if_neg hnat, if_neg hproxy, apply_ite CfgFile.toCfgData, apply_ite CfgData.natIps,
          apply_ite CfgData.proxyIps, ite_self, and_self]
      rw [hsame.1, hsame.2]
      simp [hnat, hproxy]

theorem mem_addresses_foldl (as : List (Bytes × Bytes)) (out : CfgFile) (ip : Bytes) :
    ip ∈ addresses (as.foldl assign out) ↔ ip ∈ addresses out ∨
      ∃ a ∈ as, (namesAddress a.1 ∧ validIp (host a.2) = true) ∧ ip = host a.2 := by
  induction as generalizing out with
  | nil => simp
  | cons a as ih => rw [List.foldl_cons, ih, mem_addresses_assign, or_assoc, List.exists_mem_cons_iff]

theorem loadServerSet_some (out : CfgFile) (path content : Bytes) :
    (loadServerSet out path (some content)).2 = filled ((given content).foldl assign { cfgPath := path }) := by
  rw [given, ← parseLoop_given]
  rfl

theorem modifyHead_append_nil (ls : List Bytes) : ls.modifyHead (([] : Bytes) ++ ·) = ls :=
  congrFun List.modifyHead_id ls

/-- A comma ends the item that is being read, which is dropped if it is empty. -/
theorem foldl_commaStep (val : Bytes) (st : List Bytes × Bytes) :
    (if (val.foldl commaStep st).2.isEmpty then (val.foldl commaStep st).1
      else (val.foldl commaStep st).1 ++ [(val.foldl commaStep st).2]) =
      st.1 ++ ((val.splitOn comma).modifyHead (st.2 ++ ·)).filter (!·.isEmpty) := by
  induction val generalizing st with
  | nil =>
    rw [List.foldl_nil, List.splitOn_nil]
    cases hcur : st.2 <;> simp
  | cons c val ih =>
    rw [List.foldl_cons, ih]
    by_cases hc : c = comma
    · have hstep : commaStep st c = (if st.2.isEmpty then st.1 else st.1 ++ [st.2], []) := if_pos hc
      have hsplit : (c :: val).splitOn comma = [] :: val.splitOn comma := by
        rw [List.splitOn_cons_eq_if_modifyHead, if_pos (by simpa using hc)]
      rw [hstep, hsplit, modifyHead_append_nil]
      cases hcur : st.2 <;> simp
    · have hstep : commaStep st c = (st.1, st.2 ++ [c]) := if_neg hc
      have hsplit : (c :: val).splitOn comma = (val.splitOn comma).modifyHead (c :: ·) := by
        rw [List.splitOn_cons_eq_if_modifyHead, if_neg (by simpa using hc)]
      have hhead : (st.2 ++ ·) ∘ (c :: ·) = ((st.2 ++ [c]) ++ ·) := by
        funext x
        simp
      rw [hstep, hsplit, List.modifyHead_modifyHead, hhead]

theorem commaList_eq (val : Bytes) : commaList val = items val := by
  have hall := foldl_commaStep val ([], [])
  rw [List.nil_append, modifyHead_append_nil] at hall
  exact hall

def setsUuids (key : Bytes) : Prop := key = ascii "AllowedUuids" ∨ key = ascii "WhitelistUuids"

theorem parseValue_uuids (out : CfgFile) {key val : Bytes} (h : setsUuids key) :
    (parseValue out key val).allowedUuids = commaList val := by
  rcases h with rfl | rfl <;> rfl

theorem parseValue_otherUuids (out : CfgFile) {key val : Bytes} (h : ¬setsUuids key) :
    (parseValue out key val).allowedUuids = out.allowedUuids := by
  have h' : ¬(key = ascii "AllowedUuids" ∨ key = ascii "WhitelistUuids") := h
  simp only [parseValue, apply_ite CfgFile.allowedUuids, ite_self, if_neg h']

theorem parseValue_syncAddrs (out : CfgFile) (val : Bytes) :
    (parseValue out (ascii "SyncAddrs") val).syncAddrs = commaList val := rfl

theorem parseValue_otherSyncAddrs (out : CfgFile) {key val : Bytes} (h : key ≠ ascii "SyncAddrs") :
    (parseValue out key val).syncAddrs = out.syncAddrs := by
  simp only [parseValue, apply_ite CfgFile.syncAddrs, ite_self, if_neg h]

/-- A field that one kind of key sets has the value of its last assignment. -/
theorem foldl_last {β : Type*} (field : CfgFile → β) (sets : Bytes → Prop) (value : Bytes → β)
    (hset : ∀ out key val, sets key → field (parseValue out key val) = value val)
    (hother : ∀ out key val, ¬sets key → field (parseValue out key val) = field out)
    {before after : List (Bytes × Bytes)} {key val : Bytes} (hkey : sets key) (hafter : ∀ a ∈ after, ¬sets a.1)
    (out : CfgFile) : field ((before ++ (key, val) :: after).foldl assign out) = value val := by
  have hkeep (out : CfgFile) : field (after.foldl assign out) = field out := by
    induction after generalizing out with
    | nil => rfl
    | cons a after ih =>
      rw [List.foldl_cons, ih fun b hb => hafter b (List.mem_cons_of_mem _ hb)]
      exact hother _ _ _ (hafter a List.mem_cons_self)
  rw [List.foldl_append, List.foldl_cons, hkeep]
  exact hset _ _ _ hkey

/-- The lists of uuids and addresses are the items of the last line that sets them. -/
structure Lists (content : Bytes) (out : CfgFile) : Prop where
  uuids : ∀ before key val after, (lines content).filterMap assignment = before ++ (key, val) :: after →
    setsUuids key → (∀ a ∈ after, ¬setsUuids a.1) → out.allowedUuids = items val
  addrs : ∀ before val after, (lines content).filterMap assignment = before ++ (ascii "SyncAddrs", val) :: after →
    (∀ a ∈ after, a.1 ≠ ascii "SyncAddrs") → out.syncAddrs = items val

theorem folded_lists (path content : Bytes) : Lists content (folded path content) where
  uuids before key val after h hkey hafter := by
    rw [← commaList_eq, folded, h]
    exact foldl_last (·.allowedUuids) setsUuids commaList (fun out _ _ => parseValue_uuids out)
      (fun out _ _ => parseValue_otherUuids out) hkey hafter _
  addrs before val after h hafter := by
    rw [← commaList_eq, folded, h]
    exact foldl_last (·.syncAddrs) (· = ascii "SyncAddrs") commaList
      (fun out _ val hkey => hkey ▸ parseValue_syncAddrs out val)
      (fun out _ _ => parseValue_otherSyncAddrs out) rfl hafter _

/-- The configuration is the fold of the lines if every line longer than the buffer has the same key and
value as its pieces. -/
theorem parseFile_folded {content : Bytes} (h0 : 0 ∉ content) (hwhole : ∀ line ∈ lines content, Whole line)
    (path : Bytes) : ∃ cfg, parseFile path (some content) = some cfg ∧ cfg = folded path content ∧
      Lists content cfg := by
  have hpieces : ((lines content).flatMap fun line => (pieces line).filterMap assignment) =
      (lines content).filterMap assignment := by
    rw [List.filterMap_eq_flatMap_toList]
    exact List.flatMap_congr hwhole
  refine ⟨folded path content, ?_, rfl, folded_lists path content⟩
  rw [parseFile_eq, reads_eq h0, hpieces]
  rfl

theorem parseFile_folded_short : ∃ cfg, parseFile [] (some (ascii "AuthSecret = s \nSyncAddrs=a,,b")) = some cfg ∧
    cfg = folded [] (ascii "AuthSecret = s \nSyncAddrs=a,,b") ∧
      Lists (ascii "AuthSecret = s \nSyncAddrs=a,,b") cfg :=
  parseFile_folded (by decide) (fun line hline => whole_of_short (by revert line; decide)) []

/-- A whitelist of sixteen uuids with 32 characters each. -/
def sixteenUuids : Bytes :=
  ascii "WhitelistUuids=" ++ [comma].intercalate ((List.range 16).map fun i => List.replicate 32 (UInt8.ofNat (0x61 + i)))

/-- The last uuid is cut. -/
theorem folded_not_always : ¬∀ path content : Bytes, 0 ∉ content →
    ∃ cfg, parseFile path (some content) = some cfg ∧ cfg = folded path content ∧ Lists content cfg := by
  intro h
  obtain ⟨cfg, hread, hfold, -⟩ := h [] sixteenUuids (by decide +kernel)
  have hcut : (parseFile [] (some sixteenUuids)).map (·.allowedUuids) ≠
      some (folded [] sixteenUuids).allowedUuids := by decide +kernel
  rw [hread, hfold] at hcut
  exact hcut rfl

end P2PServer.CfgFile
