import P2PServer.Decimals
import P2PServer.Fields
import P2PServer.RecvProcess
import P2PServer.SealedFiles
import P2PServer.TextLines
import P2PServer.TreeMaps

/-! The file of the blacklists (`AntiAbuse.cpp`): one line for each entry, in plain text or sealed
with a password. -/
namespace P2PServer
open ByteStrings Crypto Net SealedFiles NatServer

/-- The blacklists with the file they are kept in. -/
structure BlacklistStore where
  abuse : AntiAbuse := {}
  path : Bytes := []
  pass : Bytes := []
  deriving DecidableEq

namespace BlacklistStore

/-- The text `P2PB`. -/
def blMagic : Bytes := [0x50, 0x32, 0x50, 0x42]

/-- The line `#P2P-BLACKLIST-v1` without its newline. -/
def headerLine : Bytes :=
  [0x23, 0x50, 0x32, 0x50, 0x2d, 0x42, 0x4c, 0x41, 0x43, 0x4b, 0x4c, 0x49, 0x53, 0x54, 0x2d, 0x76, 0x31]

def blPlainHeader : Bytes := headerLine ++ [TextLines.newline]

def space : UInt8 := 0x20
def carriageReturn : UInt8 := 0x0d
def hash : UInt8 := 0x23

/-- The text `IP ` with its blank. -/
def ipPrefix : Bytes := [0x49, 0x50, 0x20]

/-- The text `UUID ` with its blank. -/
def uuidPrefix : Bytes := [0x55, 0x55, 0x49, 0x44, 0x20]

/-- The text from index `i` up to the next blank, and what stands behind the blank. -/
def wordAt (line : Bytes) (i : ℕ) : Option (Bytes × Bytes) :=
  let rest := line.drop i
  let word := rest.takeWhile (· != space)
  if word.length < rest.length then some (word, rest.drop (word.length + 1)) else none

/-- One pass of the loop in `parse_entries`. -/
def parseEntry (a : AntiAbuse) (line : Bytes) : AntiAbuse :=
  if line.isEmpty ∨ line.head? = some hash then a
  else
    let line := if line.getLast? = some carriageReturn then line.dropLast else line
    if ipPrefix.isPrefixOf line then
      match wordAt line 3 with
      | none => a
      | some (word, rest) =>
        match inetPton word with
        | none => a
        | some ip => { a with ipBlack := a.ipBlack.insert ip (Decimals.atoll rest) }
    else if uuidPrefix.isPrefixOf line then
      match wordAt line 5 with
      | none => a
      | some (word, rest) => { a with uuidBlack := a.uuidBlack.insert word (Decimals.atoll rest) }
    else a

def parseEntries (a : AntiAbuse) (content : Bytes) : AntiAbuse := TextLines.run parseEntry content a

/-- `file` is the content of the file at `path`, `none` if it cannot be opened. -/
def load (file : Option Bytes) (s : BlacklistStore) : Bool × BlacklistStore :=
  match file with
  | none => (false, s)
  | some raw =>
    if raw.isEmpty then (false, s)
    else if raw.length ≥ 4 ∧ raw.take 4 = blMagic then
      match openSealed blPlainHeader s.pass raw with
      | none => (false, s)
      | some content => (true, { s with abuse := { parseEntries s.abuse content with dirty := true } })
    else (true, { s with abuse := { parseEntries s.abuse raw with dirty := true } })

/-- The line of an address, for which the buffer of 64 bytes is long enough. -/
def ipLine (kv : UInt32 × ℤ) : Bytes := ipPrefix ++ inetNtop kv.1 ++ [space] ++ Decimals.ofInt kv.2

theorem ipLine_fits {kv : UInt32 × ℤ} (h : -2 ^ 63 ≤ kv.2) (h' : kv.2 < 2 ^ 63) :
    (ipLine kv ++ [TextLines.newline]).length < 64 := by
  have hip := inetNtop_length kv.1
  have ht := Decimals.ofInt_length h h'
  simp only [ipLine, ipPrefix, List.length_append, List.length_cons, List.length_nil]
  omega

def uuidLine (kv : Bytes × ℤ) : Bytes := uuidPrefix ++ kv.1 ++ [space] ++ Decimals.ofInt kv.2

/-- An entry whose ban has ended is left out. -/
def lines (a : AntiAbuse) (now : ℤ) : List Bytes :=
  (a.ipBlack.filter fun _ t => !(t ≤ now)).toList.map ipLine ++
    (a.uuidBlack.filter fun _ t => !(t ≤ now)).toList.map uuidLine

def plainText (a : AntiAbuse) (now : ℤ) : Bytes :=
  blPlainHeader ++ ((lines a now).map (· ++ [TextLines.newline])).flatten

/-- What `save` writes for a text, and its result. -/
def written (pass salt iv plain : Bytes) : Bool × Bytes :=
  if pass.isEmpty then (true, plain)
  else
    let key := pbkdf2HmacSha256 pass salt pbkdf2Iter 32
    match aes256CbcEncrypt key iv plain (plain.length + 16) with
    | none => (false, [])
    | some cipher => (true, sealedFile blMagic salt iv cipher)

/-- The result and the new content of the file, `none` where it is not touched. `canOpen` says
whether the file can be opened for writing, which truncates it. -/
def save (canOpen : Bool) (now : ℤ) (salt iv : Bytes) (s : BlacklistStore) : Bool × Option Bytes :=
  if s.path.isEmpty ∨ !s.abuse.dirty then (false, none)
  else if !canOpen then (false, none)
  else
    let w := written s.pass salt iv (plainText s.abuse now)
    (w.1, some w.2)

theorem inetNtop_printed {ip : UInt32} {b : UInt8} (h : b ∈ inetNtop ip) :
    b ≠ space ∧ b ≠ TextLines.newline := by
  rcases inetNtop_digits h with rfl | hd
  · decide
  · constructor <;> rintro rfl <;> exact absurd hd.1 (by decide)

theorem ofInt_printed {z : ℤ} {b : UInt8} (h : b ∈ Decimals.ofInt z) :
    b ≠ TextLines.newline ∧ b ≠ carriageReturn := by
  rcases Decimals.ofInt_printed h with rfl | h
  · decide
  · constructor <;> rintro rfl <;> exact absurd h (by decide)

theorem getLast?_ofInt (l : Bytes) (z : ℤ) :
    (l ++ Decimals.ofInt z).getLast? ≠ some carriageReturn := by
  obtain ⟨b, hb⟩ := Option.ne_none_iff_exists'.mp
    (mt List.getLast?_eq_none_iff.mp (Decimals.ofInt_ne_nil z))
  rw [List.getLast?_append, hb]
  intro h
  exact (ofInt_printed (List.mem_of_getLast? hb)).2 (Option.some.inj h)

theorem wordAt_written {front word rest : Bytes} (h : space ∉ word) :
    wordAt (front ++ word ++ [space] ++ rest) front.length = some (word, rest) := by
  have hdrop : (front ++ word ++ [space] ++ rest).drop front.length = word ++ space :: rest := by
    simp
  have htake : (word ++ space :: rest).takeWhile (· != space) = word := takeWhile_ne_cons h rest
  simp only [wordAt, hdrop, htake]
  rw [if_pos (by simp)]
  simp

theorem parseEntry_ipLine (a : AntiAbuse) (kv : UInt32 × ℤ) :
    parseEntry a (ipLine kv) = { a with ipBlack := a.ipBlack.insert kv.1 kv.2 } := by
  have hword : wordAt (ipLine kv) 3 = some (inetNtop kv.1, Decimals.ofInt kv.2) :=
    wordAt_written fun h => (inetNtop_printed h).1 rfl
  have hlast : (ipLine kv).getLast? ≠ some carriageReturn := getLast?_ofInt _ kv.2
  have hhead : (ipLine kv).head? = some 0x49 := rfl
  have hpre : ipPrefix.isPrefixOf (ipLine kv) = true := by
    simp [ipLine]
  simp only [parseEntry]
  rw [if_neg (by rw [hhead]; simp [ipLine, hash]), if_neg hlast, if_pos hpre, hword]
  simp only [inetPton_inetNtop, Decimals.atoll_ofInt]

theorem parseEntry_uuidLine (a : AntiAbuse) (kv : Bytes × ℤ) (h : space ∉ kv.1) :
    parseEntry a (uuidLine kv) = { a with uuidBlack := a.uuidBlack.insert kv.1 kv.2 } := by
  have hword : wordAt (uuidLine kv) 5 = some (kv.1, Decimals.ofInt kv.2) := wordAt_written h
  have hlast : (uuidLine kv).getLast? ≠ some carriageReturn := getLast?_ofInt _ kv.2
  have hhead : (uuidLine kv).head? = some 0x55 := rfl
  have hpre : ipPrefix.isPrefixOf (uuidLine kv) = false := rfl
  have hpre' : uuidPrefix.isPrefixOf (uuidLine kv) = true := by
    simp [uuidLine]
  simp only [parseEntry]
  rw [if_neg (by rw [hhead]; simp [uuidLine, hash]), if_neg hlast, hpre, if_neg (by simp),
    if_pos hpre', hword]
  simp only [Decimals.atoll_ofInt]

theorem foldl_ipLine (l : List (UInt32 × ℤ)) (a : AntiAbuse) : (l.map ipLine).foldl parseEntry a =
    { a with ipBlack := l.foldl (fun out kv => out.insert kv.1 kv.2) a.ipBlack } := by
  induction l generalizing a with
  | nil => rfl
  | cons kv l ih =>
    rw [List.map_cons, List.foldl_cons, parseEntry_ipLine, ih]
    rfl

theorem foldl_uuidLine (l : List (Bytes × ℤ)) (h : ∀ kv ∈ l, space ∉ kv.1) (a : AntiAbuse) :
    (l.map uuidLine).foldl parseEntry a =
      { a with uuidBlack := l.foldl (fun out kv => out.insert kv.1 kv.2) a.uuidBlack } := by
  induction l generalizing a with
  | nil => rfl
  | cons kv l ih =>
    rw [List.map_cons, List.foldl_cons, parseEntry_uuidLine a kv (h kv List.mem_cons_self),
      ih fun kv' hkv => h kv' (List.mem_cons_of_mem kv hkv)]
    rfl

/-- A key that the line format can hold. -/
def Clear (u : Bytes) : Prop := space ∉ u ∧ TextLines.newline ∉ u

/-- The entries whose ban lasts longer than `now`. -/
def Unexpired (a : AntiAbuse) (now : ℤ) (a' : AntiAbuse) : Prop :=
  a'.ipBlack = (a.ipBlack.filter fun _ t => now < t) ∧
    a'.uuidBlack = a.uuidBlack.filter fun _ t => now < t

theorem filter_later {κ : Type} [Ord κ] [Std.TransOrd κ] (m : Std.ExtTreeMap κ ℤ) (now : ℤ) :
    (m.filter fun _ t => !(t ≤ now)) = m.filter fun _ t => now < t := by
  have hlater : (fun (_ : κ) (t : ℤ) => !(t ≤ now : Bool)) = fun _ t => (now < t : Bool) := by
    funext _ t
    rw [← decide_not]
    simp
  rw [hlater]

theorem lines_clear {a : AntiAbuse} {now : ℤ}
    (h : ∀ u t, a.uuidBlack[u]? = some t → now < t → Clear u) :
    ∀ l ∈ lines a now, TextLines.newline ∉ l := by
  intro l hl hnew
  rcases List.mem_append.mp hl with hl | hl
  · obtain ⟨kv, -, rfl⟩ := List.mem_map.mp hl
    simp only [ipLine, List.mem_append] at hnew
    rcases hnew with ((hb | hb) | hb) | hb
    · exact absurd hb (by decide)
    · exact (inetNtop_printed hb).2 rfl
    · exact absurd hb (by decide)
    · exact (ofInt_printed hb).1 rfl
  · obtain ⟨kv, hkv, rfl⟩ := List.mem_map.mp hl
    simp only [uuidLine, List.mem_append] at hnew
    rcases hnew with ((hb | hb) | hb) | hb
    · exact absurd hb (by decide)
    · rw [Std.ExtTreeMap.mem_toList_iff_getElem?_eq_some, TreeMaps.filter_get,
        Option.filter_eq_some_iff] at hkv
      exact (h _ _ hkv.1 (by simpa using hkv.2)).2 hb
    · exact absurd hb (by decide)
    · exact (ofInt_printed hb).1 rfl

theorem parseEntries_lines {a : AntiAbuse} {now : ℤ}
    (h : ∀ u t, a.uuidBlack[u]? = some t → now < t → Clear u) (rest : Bytes) :
    ∃ a', Unexpired a now a' ∧
      parseEntries {} (((lines a now).map (· ++ [TextLines.newline])).flatten ++ rest) =
        parseEntries a' rest := by
  refine ⟨(lines a now).foldl parseEntry {}, ?_, TextLines.run_lines (lines_clear h) rest _⟩
  have hspace : ∀ kv ∈ (a.uuidBlack.filter fun _ t => !(t ≤ now)).toList, space ∉ kv.1 := by
    intro kv hkv
    rw [Std.ExtTreeMap.mem_toList_iff_getElem?_eq_some, TreeMaps.filter_get,
      Option.filter_eq_some_iff] at hkv
    exact (h _ _ hkv.1 (by simpa using hkv.2)).1
  rw [lines, List.foldl_append, foldl_ipLine, foldl_uuidLine _ hspace]
  exact ⟨(TreeMaps.foldl_insert_toList _).trans (filter_later _ now),
    (TreeMaps.foldl_insert_toList _).trans (filter_later _ now)⟩

/-- The bytes that are read behind the last entry of a sealed file do not matter. -/
theorem parseEntries_trailing (a : AntiAbuse) (n : ℕ) :
    parseEntries a (trailing blPlainHeader n) = a := by
  obtain ⟨hpos, hle⟩ := padLength_pos n
  rw [trailing]
  generalize padLength n = pad at hpos hle ⊢
  interval_cases pad <;> rfl

theorem wordAt_mem {line word rest : Bytes} {i : ℕ} (h : wordAt line i = some (word, rest)) :
    space ∉ word ∧ ∀ b ∈ word, b ∈ line := by
  simp only [wordAt] at h
  split at h
  · obtain ⟨rfl, -⟩ := Prod.mk.inj (Option.some.inj h)
    exact ⟨fun hmem => absurd (List.mem_takeWhile_imp hmem) (by simp),
      fun b hb => List.mem_of_mem_drop ((List.takeWhile_sublist _).mem hb)⟩
  · cases h

def KeysClear (a : AntiAbuse) : Prop := ∀ u t, a.uuidBlack[u]? = some t → Clear u

theorem parseEntry_keysClear {a : AntiAbuse} {line : Bytes} (hline : TextLines.newline ∉ line)
    (h : KeysClear a) : KeysClear (parseEntry a line) := by
  have hcut : ∀ b ∈ (if line.getLast? = some carriageReturn then line.dropLast else line), b ∈ line := by
    intro b hb
    split at hb
    · exact List.mem_of_mem_dropLast hb
    · exact hb
  simp only [parseEntry]
  split
  · exact h
  · generalize (if line.getLast? = some carriageReturn then line.dropLast else line) = line' at hcut
    split
    · split
      · exact h
      · split <;> exact h
    · split
      · split
        · exact h
        next word rest hword =>
          obtain ⟨hspace, hmem⟩ := wordAt_mem hword
          intro u t hu
          change (a.uuidBlack.insert word _)[u]? = _ at hu
          rw [TreeMaps.insert_get] at hu
          split at hu
          next heq => exact heq ▸ ⟨hspace, fun hb => hline (hcut _ (hmem _ hb))⟩
          · exact h u t hu
      · exact h

theorem parseEntries_keysClear {a : AntiAbuse} (h : KeysClear a) (content : Bytes) :
    KeysClear (parseEntries a content) :=
  TextLines.run_invariant (fun _ _ hline ha => parseEntry_keysClear hline ha) content h

theorem load_keysClear {s : BlacklistStore} (h : KeysClear s.abuse) (file : Option Bytes) :
    KeysClear (load file s).2.abuse := by
  unfold load
  split
  · exact h
  · split
    · exact h
    · split
      · split
        · exact h
        · exact parseEntries_keysClear h _
      · exact parseEntries_keysClear h _

theorem load_marks (file : Option Bytes) (s : BlacklistStore) :
    (load file s).2 = s ∨ (load file s).2.abuse.dirty = true := by
  unfold load
  split
  · exact .inl rfl
  · split
    · exact .inl rfl
    · split
      · split
        · exact .inl rfl
        · exact .inr rfl
      · exact .inr rfl

theorem load_written {a : AntiAbuse} {now : ℤ}
    (h : ∀ u t, a.uuidBlack[u]? = some t → now < t → Clear u) (path pass : Bytes) {salt iv : Bytes}
    (hsalt : salt.length = 16) (hiv : iv.length = 16) :
    (written pass salt iv (plainText a now)).1 = true ∧
      ∃ s, load (some (written pass salt iv (plainText a now)).2) { path := path, pass := pass } =
        (true, s) ∧ Unexpired a now s.abuse := by
  by_cases hpass : pass = []
  · obtain ⟨a', ha', hparse⟩ := parseEntries_lines h []
    have hread : parseEntries {} (plainText a now) = a' := by
      have hheader : plainText a now = headerLine ++
          TextLines.newline :: (((lines a now).map (· ++ [TextLines.newline])).flatten ++ []) := by
        simp [plainText, blPlainHeader]
      rw [hheader, parseEntries, TextLines.run_line (by decide)]
      exact hparse
    have hmagic : (plainText a now).take 4 ≠ blMagic := by
      change [0x23, 0x50, 0x32, 0x50] ≠ blMagic
      decide
    have hne : (plainText a now).isEmpty = false := rfl
    subst hpass
    refine ⟨rfl, { abuse := { a' with dirty := true }, path := path, pass := [] }, ?_, ha'⟩
    simp [written, load, hne, hmagic, hread]
  · obtain ⟨cipher, hc⟩ := aes256CbcEncrypt_fits (pbkdf2HmacSha256 pass salt pbkdf2Iter 32) iv
      (plainText a now)
    have hw : written pass salt iv (plainText a now) = (true, sealedFile blMagic salt iv cipher) := by
      simp [written, hpass, hc]
    have hopen : openSealed blPlainHeader pass (sealedFile blMagic salt iv cipher) =
        some (((lines a now).map (· ++ [TextLines.newline])).flatten ++
          trailing blPlainHeader (plainText a now).length) :=
      openSealed_sealedFile rfl hsalt hiv _ hpass hc
    obtain ⟨a', ha', hparse⟩ := parseEntries_lines h (trailing blPlainHeader (plainText a now).length)
    rw [parseEntries_trailing] at hparse
    rw [hw]
    refine ⟨rfl, { abuse := { a' with dirty := true }, path := path, pass := pass }, ?_, ha'⟩
    have hmagic : (sealedFile blMagic salt iv cipher).take 4 = blMagic := rfl
    have hlen : (sealedFile blMagic salt iv cipher).length ≥ 4 := by
      rw [sealedFile_length rfl hsalt hiv]
      omega
    have hne : (sealedFile blMagic salt iv cipher).isEmpty = false := rfl
    simp [load, hne, hmagic, hlen, hopen, hparse]

/-- States of the running server: what every packet, the operator and the timer do. -/
inductive Reached : AntiAbuse → Prop
  | configured (floodThreshold blacklistSec : UInt32) :
      Reached (({} : AntiAbuse).configure floodThreshold blacklistSec)
  | checkFlood {a : AntiAbuse} (ip : UInt32) (now : ℤ) : Reached a → Reached (a.checkFlood ip now).2
  | blacklistIp {a : AntiAbuse} (ip : UInt32) (now : ℤ) : Reached a → Reached (a.blacklistIp ip now)
  | adminOp {a : AntiAbuse} (env : Env) (p : Bytes) :
      Reached a → Reached (adminOp env (byteAt p 0) (textAt p 1 64) a).2.1
  | isIpBlacklistedIp {a : AntiAbuse} (ip : UInt32) (now : ℤ) :
      Reached a → Reached (a.isIpBlacklistedIp ip now).2
  | isUuidBlacklisted {a : AntiAbuse} (uuid : Bytes) (now : ℤ) :
      Reached a → Reached (a.isUuidBlacklisted uuid now).2
  | sweep {a : AntiAbuse} (now : ℤ) : Reached a → Reached (a.sweep now)

/-- Whenever there is a change to save, the file is written and gives back the entries that have
not ended. -/
def RoundTrip (s : BlacklistStore) (now : ℤ) (salt iv : Bytes) : Prop :=
  s.abuse.dirty = true → ∃ file, save true now salt iv s = (true, some file) ∧
    ∃ s', load (some file) { path := s.path, pass := s.pass } = (true, s') ∧
      Unexpired s.abuse now s'.abuse

theorem adminOp_marks (env : Env) (op : UInt8) (key : Bytes) (a : AntiAbuse) :
    AntiAbuse.Marks a (adminOp env op key a).2.1 := by
  unfold adminOp
  split
  · split
    · exact .refl a
    · exact .inl rfl
  · split
    · split
      · exact .refl a
      next ip _ =>
        dsimp only
        split
        · exact (a.isIpBlacklistedIp_marks ip env.now).trans (AntiAbuse.unblacklistIp_marks _ ip)
        · exact a.isIpBlacklistedIp_marks ip env.now
    · split
      · split
        · exact .refl a
        · exact .inl rfl
      · split
        · split
          · exact .refl a
          · dsimp only
            split
            · exact (a.isUuidBlacklisted_marks key env.now).trans (AntiAbuse.unblacklistUuid_marks _ key)
            · exact a.isUuidBlacklisted_marks key env.now
        · split <;> exact .refl a

theorem Reached.empty {a : AntiAbuse} (h : Reached a) (hd : a.dirty = false) : a.uuidBlack = ∅ := by
  have hstep {a a' : AntiAbuse} (hm : AntiAbuse.Marks a a') (ih : a.dirty = false → a.uuidBlack = ∅)
      (hd : a'.dirty = false) : a'.uuidBlack = ∅ := by
    rcases hm with hm | ⟨hm, -, hu⟩
    · rw [hd] at hm
      cases hm
    · rw [hu, ih (hm ▸ hd)]
  induction h with
  | configured => rfl
  | checkFlood ip now _ ih => exact hstep (AntiAbuse.checkFlood_marks _ ip now) ih hd
  | blacklistIp => cases hd
  | adminOp env p _ ih => exact hstep (adminOp_marks env _ _ _) ih hd
  | isIpBlacklistedIp ip now _ ih => exact hstep (AntiAbuse.isIpBlacklistedIp_marks _ ip now) ih hd
  | isUuidBlacklisted uuid now _ ih => exact hstep (AntiAbuse.isUuidBlacklisted_marks _ uuid now) ih hd
  | sweep now _ ih => exact hstep (AntiAbuse.sweep_marks _ now) ih hd

/-- What a round trip gives back has no blank and no newline in its keys. -/
theorem clear_of_roundTrip {s : BlacklistStore} {now : ℤ} {salt iv : Bytes}
    (h : RoundTrip s now salt iv) (hd : s.abuse.dirty = true) {u : Bytes} {t : ℤ}
    (hu : s.abuse.uuidBlack[u]? = some t) (ht : now < t) : Clear u := by
  obtain ⟨file, -, s', hload, -, huuids⟩ := h hd
  have hkeys := load_keysClear (s := { path := s.path, pass := s.pass }) (fun u t h => by simp at h)
    (some file)
  rw [hload] at hkeys
  refine hkeys u t ?_
  rw [huuids, TreeMaps.filter_get, hu]
  simp [ht]

/-- The file gives the entries back exactly when no uuid that is still banned has a blank or a
newline in it. -/
theorem roundTrip_iff {a : AntiAbuse} (ha : Reached a) {path pass salt iv : Bytes} (hpath : path ≠ [])
    (hsalt : salt.length = 16) (hiv : iv.length = 16) (now : ℤ) :
    RoundTrip ⟨a, path, pass⟩ now salt iv ↔
      ∀ u t, a.uuidBlack[u]? = some t → now < t → Clear u := by
  constructor
  · intro h u t hu ht
    cases hd : a.dirty with
    | true => exact clear_of_roundTrip h hd hu ht
    | false =>
      rw [ha.empty hd] at hu
      simp at hu
  · intro h hd
    obtain ⟨hw, s', hload, hs'⟩ := load_written h path pass hsalt hiv
    refine ⟨_, ?_, s', hload, hs'⟩
    rw [save, if_neg (by simpa using ⟨hpath, hd⟩), if_neg (by simp)]
    dsimp only
    rw [hw]

def banned (uuid : Bytes) : AntiAbuse :=
  (adminOp { now := 1000 } (byteAt ([3] ++ field 64 64 uuid) 0) (textAt ([3] ++ field 64 64 uuid) 1 64)
    (({} : AntiAbuse).configure 200 600)).2.1

theorem reached_banned (uuid : Bytes) : Reached (banned uuid) := .adminOp _ _ (.configured 200 600)

/-- The uuid `ZZADMIN`. -/
theorem roundTrip_banned : RoundTrip ⟨banned [0x5a, 0x5a, 0x41, 0x44, 0x4d, 0x49, 0x4e], [0x62], [0x70]⟩ 1001
    (List.replicate 16 0) (List.replicate 16 0) := by
  refine (roundTrip_iff (reached_banned _) (by decide) (by decide) (by decide) 1001).mpr ?_
  intro u t hu _
  have hone : (banned [0x5a, 0x5a, 0x41, 0x44, 0x4d, 0x49, 0x4e]).uuidBlack =
      (∅ : Std.ExtTreeMap Bytes ℤ).insert [0x5a, 0x5a, 0x41, 0x44, 0x4d, 0x49, 0x4e] 1600 := by decide
  rw [hone, TreeMaps.insert_get] at hu
  split at hu
  next h => exact h ▸ (by unfold Clear; decide)
  · simp at hu

/-- The uuid `a b` is banned and cannot be read back. -/
theorem not_roundTrip_banned : ¬∀ a, Reached a → ∀ (now : ℤ) (salt iv : Bytes), salt.length = 16 →
    iv.length = 16 → RoundTrip ⟨a, [0x62], []⟩ now salt iv := by
  intro h
  have hclear := clear_of_roundTrip (h (banned [0x61, 0x20, 0x62]) (reached_banned _) 1001
    (List.replicate 16 0) (List.replicate 16 0) (by decide) (by decide)) (by decide)
    (u := [0x61, 0x20, 0x62]) (t := 1600) (by decide) (by decide)
  exact absurd hclear.1 (by decide)

end BlacklistStore

end P2PServer
