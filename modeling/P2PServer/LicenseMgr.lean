import P2PServer.SealedFiles
import P2PServer.TextLines

/-! The license whitelist of `LicenseMgr.cpp`: its file formats and its mutex. An
operation is a function of the manager; a result `none` means that the call waits for
a mutex its own thread holds and never returns. -/
namespace P2PServer
open ByteStrings Crypto

/-- `held` says whether the calling thread holds `mu_`. -/
structure LicenseMgr where
  path : Bytes := []
  pass : Bytes := []
  uuids : Std.ExtTreeSet Bytes := ∅
  held : Bool := false
  deriving DecidableEq

namespace LicenseMgr

abbrev Op (α : Type) := LicenseMgr → Option α × LicenseMgr

/-- A scope with a `lock_guard` on `mu_`. -/
def locked {α : Type} (body : Op α) : Op α := fun m =>
  if m.held then (none, m)
  else
    match body { m with held := true } with
    | (some a, m') => (some a, { m' with held := false })
    | (none, m') => (none, m')

/-- The text `P2PL`. -/
def encMagic : Bytes := [0x50, 0x32, 0x50, 0x4c]

/-- The line `#P2P-LICENSE-v1` with its newline. -/
def plainHeader : Bytes :=
  [0x23, 0x50, 0x32, 0x50, 0x2d, 0x4c, 0x49, 0x43, 0x45, 0x4e, 0x53, 0x45, 0x2d, 0x76, 0x31, 0x0a]

def pbkdf2Iter : UInt32 := 10000

def newline : UInt8 := 0x0a
def carriageReturn : UInt8 := 0x0d
def hash : UInt8 := 0x23

def addLine (out : Std.ExtTreeSet Bytes) (line : Bytes) : Std.ExtTreeSet Bytes :=
  if line.isEmpty ∨ line.head? = some hash then out
  else
    let line := if line.getLast? = some carriageReturn then line.dropLast else line
    if line.isEmpty then out else out.insert line

/-- `while (pos < content.size())`: every pass takes one line off the content. -/
def parseLoop : ℕ → Bytes → Std.ExtTreeSet Bytes → Std.ExtTreeSet Bytes
  | 0, _, out => out
  | fuel + 1, content, out =>
    if content.isEmpty then out
    else
      let line := content.takeWhile (· != newline)
      parseLoop fuel (content.drop (line.length + 1)) (addLine out line)

def parseUuids (out : Std.ExtTreeSet Bytes) (content : Bytes) : Std.ExtTreeSet Bytes :=
  parseLoop content.length content out

def setPath (path : Bytes) : Op Bool := locked fun m => (some true, { m with path := path })

def setPassword (pass : Bytes) : Op Unit := locked fun m => (some (), { m with pass := pass })

def count : Op ℕ := locked fun m => (some m.uuids.size, m)

def add (uuid : Bytes) : Op Bool := fun m =>
  if uuid.isEmpty then (some false, m)
  else locked (fun m => (some (!m.uuids.contains uuid), { m with uuids := m.uuids.insert uuid })) m

def remove (uuid : Bytes) : Op Bool :=
  locked fun m => (some (m.uuids.contains uuid), { m with uuids := m.uuids.erase uuid })

def existsUuid (uuid : Bytes) : Op Bool := locked fun m => (some (m.uuids.contains uuid), m)

def list : Op (List Bytes) := locked fun m => (some m.uuids.toList, m)

/-- An empty whitelist admits every uuid. -/
def permits (m : LicenseMgr) (uuid : Bytes) : Bool := m.uuids.isEmpty || m.uuids.contains uuid

def allowed (uuid : Bytes) : Op Bool := locked fun m => (some (m.permits uuid), m)

/-- The text that `parse_uuids` is given for a file in the encrypted format. The
buffer is one byte longer than the ciphertext and the sub-string starts after the
header, with the length of the whole plaintext. -/
def decodeEncrypted (pass raw : Bytes) : Option Bytes :=
  if raw.length < 4 + 1 + 4 + 16 + 16 + 16 then none
  else if pass.isEmpty then none
  else
    let iter := rd32 (raw.getD 5 0) (raw.getD 6 0) (raw.getD 7 0) (raw.getD 8 0)
    let salt := window raw 9 16
    let iv := window raw 25 16
    let cipher := raw.drop 41
    let key := pbkdf2HmacSha256 pass salt (if iter ≠ 0 then iter else pbkdf2Iter) 32
    match aes256CbcDecrypt key iv cipher (cipher.length + 1) with
    | none => none
    | some (out, plen) =>
      let plain := overwrite (List.replicate (cipher.length + 1) 0) out
      if plen < plainHeader.length ∨ plain.take plainHeader.length ≠ plainHeader then none
      else some (window plain plainHeader.length plen)

/-- `LOGI(..., count())` followed by `return true`, inside the locked scope. -/
def loggedCount : Op Bool := fun m =>
  match count m with
  | (some _, m') => (some true, m')
  | (none, m') => (none, m')

/-- `file` is the content of the file at `path`, `none` if it cannot be opened. -/
def load (path : Bytes) (file : Option Bytes) : Op Bool :=
  match file with
  | none => fun m => (some false, m)
  | some raw => locked fun m =>
    let m := { m with path := path }
    if raw.length ≥ 4 ∧ raw.take 4 = encMagic then
      match decodeEncrypted m.pass raw with
      | none => (some false, m)
      | some content => loggedCount { m with uuids := parseUuids ∅ content }
    else loggedCount { m with uuids := parseUuids ∅ raw }

/-- The text of the whitelist: the header and one line for each uuid. -/
def plainText (uuids : Std.ExtTreeSet Bytes) : Bytes :=
  plainHeader ++ (uuids.toList.map (· ++ [newline])).flatten

def encryptedFile (salt iv cipher : Bytes) : Bytes :=
  encMagic ++ [1] ++ be32 pbkdf2Iter ++ salt ++ iv ++ cipher

/-- The result and the new content of the file, `none` where it is not touched.
`canOpen` says whether the file can be opened for writing, which truncates it. -/
def save (canOpen : Bool) (salt iv : Bytes) : Op (Bool × Option Bytes) :=
  locked fun m =>
    if m.path.isEmpty then (some (false, none), m)
    else if !canOpen then (some (false, none), m)
    else
      let plain := plainText m.uuids
      if m.pass.isEmpty then (some (true, some plain), m)
      else
        let key := pbkdf2HmacSha256 m.pass salt pbkdf2Iter 32
        match aes256CbcEncrypt key iv plain (plain.length + 16) with
        | none => (some (false, some []), m)
        | some cipher => (some (true, some (encryptedFile salt iv cipher)), m)

/-- A uuid that the file format can hold. -/
def Storable (u : Bytes) : Prop :=
  u ≠ [] ∧ newline ∉ u ∧ u.head? ≠ some hash ∧ u.getLast? ≠ some carriageReturn

theorem addLine_storable {u : Bytes} (h : Storable u) (out : Std.ExtTreeSet Bytes) :
    addLine out u = out.insert u := by
  obtain ⟨hne, -, hhash, hcr⟩ := h
  simp [addLine, hne, hhash, hcr]

theorem parseUuids_eq (out : Std.ExtTreeSet Bytes) (content : Bytes) :
    parseUuids out content = TextLines.run addLine content out := by
  have hloop (fuel : ℕ) (content : Bytes) (out : Std.ExtTreeSet Bytes) :
      parseLoop fuel content out = TextLines.loop addLine fuel content out := by
    induction fuel generalizing content out with
    | zero => rfl
    | succ fuel ih =>
      simp only [parseLoop, TextLines.loop, ih]
      rfl
  exact hloop _ _ _

theorem parseUuids_nil (out : Std.ExtTreeSet Bytes) : parseUuids out [] = out := rfl

theorem foldl_addLine (us : List Bytes) (h : ∀ u ∈ us, Storable u) (out : Std.ExtTreeSet Bytes) :
    us.foldl addLine out = us.foldl (·.insert ·) out := by
  induction us generalizing out with
  | nil => rfl
  | cons u us ih =>
    rw [List.foldl_cons, addLine_storable (h u List.mem_cons_self),
      ih fun v hv => h v (List.mem_cons_of_mem u hv)]
    rfl

theorem parseUuids_lines (us : List Bytes) (h : ∀ u ∈ us, Storable u) (rest : Bytes)
    (out : Std.ExtTreeSet Bytes) :
    parseUuids out ((us.map (· ++ [newline])).flatten ++ rest) =
      parseUuids (us.foldl (·.insert ·) out) rest := by
  rw [parseUuids_eq, parseUuids_eq, ← foldl_addLine us h]
  exact TextLines.run_lines (fun u hu => (h u hu).2.1) rest out

theorem mem_foldl_insert (us : List Bytes) (out : Std.ExtTreeSet Bytes) (u : Bytes) :
    u ∈ us.foldl (·.insert ·) out ↔ u ∈ us ∨ u ∈ out := by
  induction us generalizing out with
  | nil => simp
  | cons v us ih =>
    rw [List.foldl_cons, ih, Std.ExtTreeSet.mem_insert, Std.LawfulEqOrd.compare_eq_iff_eq,
      List.mem_cons]
    tauto

theorem foldl_insert_toList (s : Std.ExtTreeSet Bytes) :
    s.toList.foldl (·.insert ·) (∅ : Std.ExtTreeSet Bytes) = s := by
  apply Std.ExtTreeSet.ext_mem
  intro u
  rw [mem_foldl_insert, Std.ExtTreeSet.mem_toList]
  simp

theorem parseUuids_plainText (s : Std.ExtTreeSet Bytes) (h : ∀ u ∈ s, Storable u) (rest : Bytes) :
    parseUuids ∅ ((s.toList.map (· ++ [newline])).flatten ++ rest) = parseUuids s rest := by
  rw [parseUuids_lines _ fun u hu => h u (Std.ExtTreeSet.mem_toList.mp hu), foldl_insert_toList]

theorem parseUuids_header (rest : Bytes) (out : Std.ExtTreeSet Bytes) :
    parseUuids out (plainHeader ++ rest) = parseUuids out rest := by
  have hsplit : plainHeader ++ rest = plainHeader.dropLast ++ newline :: rest := by
    simp [plainHeader, newline]
  rw [hsplit, parseUuids_eq, parseUuids_eq]
  exact TextLines.run_line (by decide) rest out

/-- What `load` reads after the last line of an encrypted whitelist of `n` bytes: the
padding, and the terminating zero of the buffer if there is room for it. -/
def trailing (n : ℕ) : Bytes :=
  (List.replicate (padLength n) (UInt8.ofNat (padLength n)) ++ [0]).take 16

/-- The line those bytes are parsed as; padding bytes of value 10 are newlines. -/
def residue (n : ℕ) : Bytes := if padLength n = 10 then [0] else trailing n

theorem parseUuids_trailing (n : ℕ) (out : Std.ExtTreeSet Bytes) :
    parseUuids out (trailing n) = out.insert (residue n) := by
  obtain ⟨hpos, hle⟩ := padLength_pos n
  rw [residue, trailing]
  generalize padLength n = pad at hpos hle ⊢
  interval_cases pad <;> rfl

theorem decodeEncrypted_saved (pass salt iv : Bytes) (uuids : Std.ExtTreeSet Bytes)
    (hpass : pass ≠ []) (hsalt : salt.length = 16) (hiv : iv.length = 16) {cipher : Bytes}
    (hc : aes256CbcEncrypt (pbkdf2HmacSha256 pass salt pbkdf2Iter 32) iv (plainText uuids)
      ((plainText uuids).length + 16) = some cipher) :
    decodeEncrypted pass (encryptedFile salt iv cipher) =
      some ((uuids.toList.map (· ++ [newline])).flatten ++ trailing (plainText uuids).length) :=
  SealedFiles.openSealed_sealedFile rfl hsalt hiv _ hpass hc

/-- The claim of the file format: what `save` has written, `load` reads back. -/
def RoundTrip (m m' : LicenseMgr) (path salt iv : Bytes) : Prop :=
  ∃ file, (save true salt iv m).1 = some (true, some file) ∧
    (load path (some file) m').1 = some true ∧ (load path (some file) m').2.uuids = m.uuids

theorem save_spec {m : LicenseMgr} (hm : m.held = false) (hpath : m.path ≠ []) (salt iv : Bytes) :
    (m.pass = [] ∧ (save true salt iv m).1 = some (true, some (plainText m.uuids))) ∨
    (m.pass ≠ [] ∧ ∃ cipher,
      aes256CbcEncrypt (pbkdf2HmacSha256 m.pass salt pbkdf2Iter 32) iv (plainText m.uuids)
        ((plainText m.uuids).length + 16) = some cipher ∧
      (save true salt iv m).1 = some (true, some (encryptedFile salt iv cipher))) := by
  by_cases hp : m.pass = []
  · left
    exact ⟨hp, by simp [save, locked, hm, hpath, hp]⟩
  · right
    obtain ⟨cipher, hc⟩ := SealedFiles.aes256CbcEncrypt_fits
      (pbkdf2HmacSha256 m.pass salt pbkdf2Iter 32) iv (plainText m.uuids)
    exact ⟨hp, cipher, hc, by simp [save, locked, hm, hpath, hp, hc]⟩

/-- Reading the number of uuids for the log waits for the mutex that `load` holds. -/
theorem loggedCount_held {m : LicenseMgr} (h : m.held = true) : loggedCount m = (none, m) := by
  simp [loggedCount, count, locked, h]

theorem load_plain {m : LicenseMgr} (hm : m.held = false) (path : Bytes) {raw : Bytes}
    (h : raw.take 4 ≠ encMagic) :
    load path (some raw) m =
      (none, { m with path := path, uuids := parseUuids ∅ raw, held := true }) := by
  simp [load, locked, hm, h, loggedCount_held]

theorem load_encrypted {m : LicenseMgr} (hm : m.held = false) (path : Bytes) {raw content : Bytes}
    (hmagic : raw.take 4 = encMagic) (h : decodeEncrypted m.pass raw = some content) :
    load path (some raw) m =
      (none, { m with path := path, uuids := parseUuids ∅ content, held := true }) := by
  have hlen : raw.length ≥ 4 := by
    have := congrArg List.length hmagic
    rw [List.length_take] at this
    change min 4 raw.length = 4 at this
    omega
  simp [load, locked, hm, hmagic, hlen, h, loggedCount_held]

theorem insert_eq_self_iff (s : Std.ExtTreeSet Bytes) (u : Bytes) : s.insert u = s ↔ u ∈ s := by
  constructor
  · intro h
    rw [← h]
    exact Std.ExtTreeSet.mem_insert_self
  · intro h
    apply Std.ExtTreeSet.ext_mem
    intro v
    rw [Std.ExtTreeSet.mem_insert, Std.LawfulEqOrd.compare_eq_iff_eq]
    constructor
    · rintro (rfl | hv)
      · exact h
      · exact hv
    · exact .inr

/-- How far `load` gets with a file that `save` has written. -/
theorem load_saved_blocks (m m' : LicenseMgr) (path salt iv : Bytes) (hm : m.held = false)
    (hm' : m'.held = false) (hpath : m.path ≠ []) (hpass : m'.pass = m.pass)
    (hsalt : salt.length = 16) (hiv : iv.length = 16) (hs : ∀ u ∈ m.uuids, Storable u) :
    ∃ file, (save true salt iv m).1 = some (true, some file) ∧
      (load path (some file) m').1 = none ∧
      ((load path (some file) m').2.uuids = m.uuids ↔
        m.pass = [] ∨ residue (plainText m.uuids).length ∈ m.uuids) := by
  rcases save_spec hm hpath salt iv with ⟨hp, hsave⟩ | ⟨hp, cipher, hc, hsave⟩
  · have hmagic : (plainText m.uuids).take 4 ≠ encMagic := by
      change [0x23, 0x50, 0x32, 0x50] ≠ encMagic
      decide
    have hparse : parseUuids ∅ (plainText m.uuids) = m.uuids := by
      have h := parseUuids_plainText m.uuids hs []
      rw [List.append_nil] at h
      rw [plainText, parseUuids_header, h, parseUuids_nil]
    refine ⟨_, hsave, ?_⟩
    rw [load_plain hm' path hmagic, hparse]
    exact ⟨rfl, by simp [hp]⟩
  · have hdec := decodeEncrypted_saved m.pass salt iv m.uuids hp hsalt hiv hc
    rw [← hpass] at hdec
    refine ⟨_, hsave, ?_⟩
    rw [load_encrypted hm' path rfl hdec, parseUuids_plainText m.uuids hs, parseUuids_trailing]
    refine ⟨rfl, ?_⟩
    change m.uuids.insert _ = m.uuids ↔ _
    rw [insert_eq_self_iff]
    simp [hp]

/-- `load` never returns from a file that `save` has written. At the point where it
waits for itself, the whitelist it has read is the saved one in the plain format, and
in the encrypted format exactly when the saved one has the residue as a member. -/
theorem load_saved (m m' : LicenseMgr) (path salt iv : Bytes) (hm : m.held = false)
    (hm' : m'.held = false) (hpath : m.path ≠ []) (hpass : m'.pass = m.pass)
    (hsalt : salt.length = 16) (hiv : iv.length = 16) (hs : ∀ u ∈ m.uuids, Storable u) :
    ¬RoundTrip m m' path salt iv ∧
      ∃ file, (save true salt iv m).1 = some (true, some file) ∧
        ((load path (some file) m').2.uuids = m.uuids ↔
          m.pass = [] ∨ residue (plainText m.uuids).length ∈ m.uuids) := by
  obtain ⟨file, hsave, hnone, hset⟩ :=
    load_saved_blocks m m' path salt iv hm hm' hpath hpass hsalt hiv hs
  refine ⟨?_, file, hsave, hset⟩
  rintro ⟨file', hsave', hload, -⟩
  rw [hsave] at hsave'
  cases hsave'
  rw [hnone] at hload
  exact absurd hload (by simp)

def oneUuid : LicenseMgr := { path := [0x2f, 0x78], uuids := (∅ : Std.ExtTreeSet Bytes).insert [0x61] }

theorem oneUuid_storable : ∀ u ∈ oneUuid.uuids, Storable u := by
  intro u hu
  rw [oneUuid, Std.ExtTreeSet.mem_insert, Std.LawfulEqOrd.compare_eq_iff_eq] at hu
  rcases hu with rfl | hu
  · exact ⟨by decide, by decide, by decide, by decide⟩
  · exact absurd hu Std.ExtTreeSet.not_mem_empty

theorem load_saved_oneUuid :
    ¬RoundTrip oneUuid oneUuid [0x2f, 0x78] (List.replicate 16 0) (List.replicate 16 0) ∧
      ∃ file, (save true (List.replicate 16 0) (List.replicate 16 0) oneUuid).1 =
          some (true, some file) ∧
        ((load [0x2f, 0x78] (some file) oneUuid).2.uuids = oneUuid.uuids ↔
          oneUuid.pass = [] ∨ residue (plainText oneUuid.uuids).length ∈ oneUuid.uuids) :=
  load_saved oneUuid oneUuid _ _ _ rfl rfl (by decide) rfl (by decide) (by decide) oneUuid_storable

/-- The file with the uuid `a` is written, and reading it back does not return. -/
theorem roundTrip_fails : ¬∀ m m' path salt iv, m.held = false → m'.held = false → m.path ≠ [] →
    m'.pass = m.pass → salt.length = 16 → iv.length = 16 → (∀ u ∈ m.uuids, Storable u) →
    RoundTrip m m' path salt iv := by
  intro h
  obtain ⟨file, hsave, hload, -⟩ := h oneUuid oneUuid [0x2f, 0x78] (List.replicate 16 0)
    (List.replicate 16 0) rfl rfl (by decide) rfl (by decide) (by decide) oneUuid_storable
  have hfile : (save true (List.replicate 16 0) (List.replicate 16 0) oneUuid).1 =
      some (true, some (plainHeader ++ [0x61, newline])) := by decide +kernel
  rw [hfile] at hsave
  cases hsave
  have hblocked : (load [0x2f, 0x78] (some (plainHeader ++ [0x61, newline])) oneUuid).1 = none := by
    decide +kernel
  rw [hblocked] at hload
  exact absurd hload (by simp)

end LicenseMgr

end P2PServer
