import P2PServer.LicenseMgr

/-! The lock discipline of `LicenseMgr`: which public operations return with `mu_` released. -/
namespace P2PServer.LicenseMgr
open ByteStrings

/-- The public operations, each with what it reads of its surroundings. -/
inductive Operation
  | setPath (path : Bytes)
  | setPassword (pass : Bytes)
  | load (path : Bytes) (file : Option Bytes)
  | save (canOpen : Bool) (salt iv : Bytes)
  | add (uuid : Bytes)
  | remove (uuid : Bytes)
  | existsUuid (uuid : Bytes)
  | count
  | list
  | allowed (uuid : Bytes)

/-- Whether the call returns, and the manager after it. -/
def returning {α : Type} (op : Op α) (m : LicenseMgr) : Bool × LicenseMgr :=
  ((op m).1.isSome, (op m).2)

def Operation.call : Operation → LicenseMgr → Bool × LicenseMgr
  | .setPath path => returning (LicenseMgr.setPath path)
  | .setPassword pass => returning (LicenseMgr.setPassword pass)
  | .load path file => returning (LicenseMgr.load path file)
  | .save canOpen salt iv => returning (LicenseMgr.save canOpen salt iv)
  | .add uuid => returning (LicenseMgr.add uuid)
  | .remove uuid => returning (LicenseMgr.remove uuid)
  | .existsUuid uuid => returning (LicenseMgr.existsUuid uuid)
  | .count => returning LicenseMgr.count
  | .list => returning LicenseMgr.list
  | .allowed uuid => returning (LicenseMgr.allowed uuid)

/-- A body that keeps the mutex and comes to its end, whatever it returns. -/
def Sound {α : Type} (body : Op α) : Prop :=
  ∀ m : LicenseMgr, m.held = true → (body m).1.isSome ∧ (body m).2.held = true

/-- Such a body in a locked scope returns with the mutex released. -/
theorem locked_released {α : Type} {body : Op α} (hb : Sound body) {m : LicenseMgr}
    (hm : m.held = false) : (locked body m).1.isSome ∧ (locked body m).2.held = false := by
  obtain ⟨hret, -⟩ := hb { m with held := true } rfl
  obtain ⟨a, ha⟩ := Option.isSome_iff_exists.mp hret
  have hlocked : locked body m =
      (some a, { (body { m with held := true }).2 with held := false }) := by
    simp only [locked, hm, Bool.false_eq_true, if_false]
    split
    · rename_i heq
      rw [heq] at ha
      cases ha
      rw [heq]
    · rename_i heq
      rw [heq] at ha
      cases ha
  rw [hlocked]
  exact ⟨rfl, rfl⟩

theorem sound_save (canOpen : Bool) (salt iv : Bytes) : Sound fun m : LicenseMgr =>
    if m.path.isEmpty then (some (false, (none : Option Bytes)), m)
    else if !canOpen then (some (false, none), m)
    else
      let plain := plainText m.uuids
      if m.pass.isEmpty then (some (true, some plain), m)
      else
        let key := Crypto.pbkdf2HmacSha256 m.pass salt pbkdf2Iter 32
        match Crypto.aes256CbcEncrypt key iv plain (plain.length + 16) with
        | none => (some (false, some []), m)
        | some cipher => (some (true, some (encryptedFile salt iv cipher)), m) := by
  intro m hm
  dsimp only
  split
  · exact ⟨rfl, hm⟩
  split
  · exact ⟨rfl, hm⟩
  split
  · exact ⟨rfl, hm⟩
  split <;> exact ⟨rfl, hm⟩

/-- What the operations of a manager may promise of its lock: the mutex is taken only where it is
free, so that the call comes to its end, and it is free again afterwards. -/
def Releases (op : Operation) (m : LicenseMgr) : Prop :=
  (op.call m).1 = true ∧ (op.call m).2.held = false

/-- A file that `load` turns down: it cannot be opened, or it has the magic of the encrypted format
and is too short, has no password, or does not decrypt to a whitelist. -/
def TurnedDown (m : LicenseMgr) : Operation → Prop
  | .load _ file => ∀ raw, file = some raw →
      raw.take 4 = encMagic ∧ decodeEncrypted m.pass raw = none
  | _ => True

theorem load_turnedDown {m : LicenseMgr} (hm : m.held = false) (path : Bytes) {raw : Bytes}
    (hmagic : raw.take 4 = encMagic) (h : decodeEncrypted m.pass raw = none) :
    load path (some raw) m = (some false, { m with path := path }) := by
  have hlen : raw.length ≥ 4 := by
    have := congrArg List.length hmagic
    rw [List.length_take] at this
    change min 4 raw.length = 4 at this
    omega
  have hback : { m with path := path, held := false } = { m with path := path } := by rw [← hm]
  simp [load, locked, hm, hmagic, hlen, h, hback]

/-- `load` comes back exactly from the files it turns down. -/
theorem load_releases_iff {m : LicenseMgr} (hm : m.held = false) (path : Bytes) (file : Option Bytes) :
    Releases (.load path file) m ↔ TurnedDown m (.load path file) := by
  constructor
  · rintro ⟨hret, -⟩ raw rfl
    by_contra hc
    change (load path (some raw) m).1.isSome = true at hret
    by_cases hmagic : raw.take 4 = encMagic
    · obtain ⟨content, hdec⟩ := Option.ne_none_iff_exists'.mp fun hn => hc ⟨hmagic, hn⟩
      rw [load_encrypted hm path hmagic hdec] at hret
      cases hret
    · rw [load_plain hm path hmagic] at hret
      cases hret
  · intro h
    cases file with
    | none => exact ⟨rfl, hm⟩
    | some raw =>
      obtain ⟨hmagic, hdec⟩ := h raw rfl
      change (load path (some raw) m).1.isSome = true ∧ (load path (some raw) m).2.held = false
      rw [load_turnedDown hm path hmagic hdec]
      exact ⟨rfl, hm⟩

/-- Every operation but `load` releases the mutex it takes, and `load` does so for the files it
turns down: on both ways to success it asks for the mutex once more to log the size. -/
theorem releases_iff {m : LicenseMgr} (hm : m.held = false) (op : Operation) :
    Releases op m ↔ TurnedDown m op := by
  cases op with
  | load path file => exact load_releases_iff hm path file
  | setPath path => exact iff_of_true (locked_released (fun _ h => ⟨rfl, h⟩) hm) trivial
  | setPassword pass => exact iff_of_true (locked_released (fun _ h => ⟨rfl, h⟩) hm) trivial
  | save canOpen salt iv =>
    exact iff_of_true (locked_released (sound_save canOpen salt iv) hm) trivial
  | add uuid =>
    refine iff_of_true ?_ trivial
    by_cases hu : uuid.isEmpty = true
    · simp [Releases, Operation.call, returning, add, hu, hm]
    · have hinserts : Sound fun m : LicenseMgr =>
          (some (!m.uuids.contains uuid), { m with uuids := m.uuids.insert uuid }) := fun _ h => ⟨rfl, h⟩
      simp only [Releases, Operation.call, returning, add, if_neg hu]
      exact locked_released hinserts hm
  | remove uuid => exact iff_of_true (locked_released (fun _ h => ⟨rfl, h⟩) hm) trivial
  | existsUuid uuid => exact iff_of_true (locked_released (fun _ h => ⟨rfl, h⟩) hm) trivial
  | count => exact iff_of_true (locked_released (fun _ h => ⟨rfl, h⟩) hm) trivial
  | list => exact iff_of_true (locked_released (fun _ h => ⟨rfl, h⟩) hm) trivial
  | allowed uuid => exact iff_of_true (locked_released (fun _ h => ⟨rfl, h⟩) hm) trivial

theorem releases_short : Releases (.load [] (some encMagic)) {} :=
  (releases_iff rfl _).mpr fun raw h => by
    cases h
    exact ⟨rfl, by decide⟩

/-- An empty readable file: `load` waits for its own mutex. -/
theorem load_waits : ¬∀ (m : LicenseMgr) (op : Operation), m.held = false → Releases op m := by
  intro h
  have hmagic := (load_releases_iff rfl [] (some [])).mp (h {} (.load [] (some [])) rfl) [] rfl
  exact absurd hmagic.1 (by decide)

end P2PServer.LicenseMgr
