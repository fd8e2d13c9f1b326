import P2PServer.SessionReceive

/-! The receive window where the 16-bit sequence numbers wrap around. Acks are compared by the
distance modulo 65536, the numbers of received frames as they are. -/
namespace P2PServer.Session
open ByteStrings ProtoDef Codec TreeMaps

/-- A session that has been given these frames. -/
def receiving (sid : UInt16) (frames : List Bytes) : Session :=
  frames.foldl (fun s f => (onFrame s f).1) { sessionId := sid }

/-- So many positions behind the expected number, and ahead of it. -/
def lag (s : Session) (t : WireTunnel) : ℕ := (s.expectedSeq - t.seq).toNat

def lead (s : Session) (t : WireTunnel) : ℕ := (t.seq - s.expectedSeq).toNat

/-- The frame waits in the buffer. -/
def Buffered (s : Session) (t : WireTunnel) : Prop :=
  s.ooo[t.seq]? = some t.payload ∧ s.slotChannel[t.seq]? = some t.channelId

/-- What the window does with a frame: one from behind changes nothing, and one from ahead is kept
as long as there is room. -/
structure Windowed (s : Session) (t : WireTunnel) (r : Session × List Out) : Prop where
  behind : 1 ≤ lag s t → lag s t ≤ 64 → delivered r.2 = [] ∧ r.1.expectedSeq = s.expectedSeq ∧
    r.1.ooo = s.ooo ∧ r.1.slotChannel = s.slotChannel
  ahead : 1 ≤ lead s t → lead s t ≤ 63 → s.ooo.size < 64 → Buffered r.1 t

/-- The numbers do not wrap between the frame and the expected one, or nothing can go wrong: the
buffer is full, or it holds the frame already. -/
structure Unwrapped (s : Session) (t : WireTunnel) : Prop where
  behind : 1 ≤ lag s t → lag s t ≤ 64 →
    lag s t ≤ s.expectedSeq.toNat ∨ 64 ≤ s.ooo.size ∨ Buffered s t
  ahead : 1 ≤ lead s t → lead s t ≤ 63 → s.ooo.size < 64 → s.expectedSeq.toNat + lead s t < 65536

/-- Everything in the buffer has a larger number than the expected one. -/
def Later (s : Session) : Prop := ∀ k p, s.ooo[k]? = some p → s.expectedSeq < k

theorem drainLoop_later (fuel : ℕ) (s : Session) (h : ∀ k p, s.ooo[k]? = some p → s.expectedSeq ≤ k)
    (hf : s.ooo.size ≤ fuel) : Later (drainLoop fuel s).1 := by
  induction fuel generalizing s with
  | zero =>
    have hempty : s.ooo = ∅ := Std.ExtTreeMap.eq_empty_iff_size_eq_zero.mpr (Nat.le_zero.mp hf)
    intro k p hk
    change s.ooo[k]? = some p at hk
    simp [hempty] at hk
  | succ fuel ih =>
    rw [drainLoop]
    split
    · next hd =>
      intro k p hk
      cases (head_toList_none hd k).symm.trans hk
    · next k₀ p₀ hd =>
      have hk₀ := head_toList_get hd
      split
      · next he =>
        have hmem : k₀ ∈ s.ooo := by
          rw [Std.ExtTreeMap.mem_iff_isSome_getElem?, hk₀]
          rfl
        apply ih
        · intro k p hk
          change (s.ooo.erase k₀)[k]? = some p at hk
          rw [erase_get] at hk
          split at hk
          · cases hk
          next hne =>
            have hle := h k p hk
            change s.expectedSeq + 1 ≤ k
            rw [← he] at hle ⊢
            rw [UInt16.le_iff_toNat_le] at hle ⊢
            have hneq : k.toNat ≠ k₀.toNat := fun hc => hne (UInt16.toNat_inj.mp hc)
            have hk65 := k.toNat_lt
            rw [UInt16.toNat_add]
            change (k₀.toNat + 1) % 65536 ≤ _
            omega
        · change (s.ooo.erase k₀).size ≤ fuel
          rw [Std.ExtTreeMap.size_erase, if_pos (Std.ExtTreeMap.contains_iff_mem.mpr hmem)]
          omega
      · next hne =>
        intro k p hk
        have hle := Std.isLE_compare.mp (head_toList_le hd hk)
        have hle₀ := h k₀ p₀ hk₀
        have hneq : k₀.toNat ≠ s.expectedSeq.toNat := fun hc => hne (UInt16.toNat_inj.mp hc)
        rw [UInt16.le_iff_toNat_le] at hle hle₀
        rw [UInt16.lt_iff_toNat_lt]
        change s.expectedSeq.toNat < k.toNat
        omega

theorem handleData_later {s : Session} (h : Later s) (t : WireTunnel) : Later (handleData s t).1 := by
  rw [handleData]
  dsimp only
  split
  · split
    · refine drainLoop_later _ _ (fun k p hk => ?_) le_rfl
      have hlt := h k p hk
      change s.expectedSeq + 1 ≤ k
      rw [UInt16.lt_iff_toNat_lt] at hlt
      rw [UInt16.le_iff_toNat_le, UInt16.toNat_add]
      change (s.expectedSeq.toNat + 1) % 65536 ≤ _
      omega
    · split
      · next hgt =>
        intro k p hk
        change (s.ooo.insert t.seq t.payload)[k]? = some p at hk
        rw [insert_get] at hk
        split at hk
        · next hkt => exact hkt ▸ hgt.1
        · exact h k p hk
      · exact h
  · exact h

theorem onFrame_later {s : Session} (h : Later s) (f : Bytes) : Later (onFrame s f).1 := by
  unfold onFrame
  split
  · exact h
  · split
    · exact handleData_later h _
    · split
      · exact h
      · split
        · exact h
        · split <;> exact h

theorem receiving_later (sid : UInt16) (frames : List Bytes) : Later (receiving sid frames) := by
  have hfold (s : Session) (h : Later s) : Later (frames.foldl (fun s f => (onFrame s f).1) s) := by
    induction frames generalizing s with
    | nil => exact h
    | cons f frames ih => exact ih _ (onFrame_later h f)
  refine hfold _ fun k p hk => ?_
  simp at hk

variable {s : Session} {t : WireTunnel}

theorem lt_of_lag (h1 : 1 ≤ lag s t) (h64 : lag s t ≤ 64) :
    s.expectedSeq < t.seq ↔ ¬lag s t ≤ s.expectedSeq.toNat := by
  unfold lag at *
  have he := s.expectedSeq.toNat_lt
  have ht := t.seq.toNat_lt
  rw [UInt16.lt_iff_toNat_lt]
  rw [UInt16.toNat_sub] at *
  omega

theorem lt_of_lead (h1 : 1 ≤ lead s t) (h63 : lead s t ≤ 63) :
    s.expectedSeq < t.seq ↔ s.expectedSeq.toNat + lead s t < 65536 := by
  unfold lead at *
  have he := s.expectedSeq.toNat_lt
  have ht := t.seq.toNat_lt
  rw [UInt16.lt_iff_toNat_lt]
  rw [UInt16.toNat_sub] at *
  omega

theorem ne_of_lag (h1 : 1 ≤ lag s t) : t.seq ≠ s.expectedSeq := by
  intro he
  rw [lag, he, UInt16.sub_self] at h1
  exact absurd h1 (by decide)

theorem ne_of_lead (h1 : 1 ≤ lead s t) : t.seq ≠ s.expectedSeq := by
  intro he
  rw [lead, he, UInt16.sub_self] at h1
  exact absurd h1 (by decide)

/-- A reliable frame that is not the expected one is buffered or only acknowledged. -/
theorem handleData_other (hrel : t.flags &&& tfReliable ≠ 0) (hne : t.seq ≠ s.expectedSeq) :
    delivered (handleData s t).2 = [] ∧ (handleData s t).1.expectedSeq = s.expectedSeq ∧
      if s.expectedSeq < t.seq ∧ s.ooo.size < 64 then
        (handleData s t).1.ooo = s.ooo.insert t.seq t.payload ∧
          (handleData s t).1.slotChannel = s.slotChannel.insert t.seq t.channelId
      else (handleData s t).1.ooo = s.ooo ∧ (handleData s t).1.slotChannel = s.slotChannel := by
  rw [handleData]
  dsimp only
  rw [if_pos hrel, if_neg hne]
  by_cases h : s.expectedSeq < t.seq ∧ s.ooo.size < 64
  · rw [if_pos h, if_pos h]
    exact ⟨rfl, rfl, rfl, rfl⟩
  · rw [if_neg h, if_neg h]
    exact ⟨rfl, rfl, rfl, rfl⟩

theorem handleData_windowed (hlater : Later s) (hrel : t.flags &&& tfReliable ≠ 0) :
    Windowed s t (handleData s t) ↔ Unwrapped s t := by
  constructor
  · rintro ⟨hbehind, hahead⟩
    constructor
    · intro h1 h64
      obtain ⟨-, -, hooo, hslot⟩ := hbehind h1 h64
      have hother := (handleData_other hrel (ne_of_lag h1)).2.2
      by_contra! hno
      rw [if_pos ⟨(lt_of_lag h1 h64).mpr hno.1.not_ge, hno.2.1⟩] at hother
      exact hno.2.2 ⟨(insert_eq_self ..).mp (hother.1.symm.trans hooo),
        (insert_eq_self ..).mp (hother.2.symm.trans hslot)⟩
    · intro h1 h63 hroom
      have hkept := hahead h1 h63 hroom
      have hother := (handleData_other hrel (ne_of_lead h1)).2.2
      by_contra hno
      have hle := mt (lt_of_lead h1 h63).mp hno
      rw [if_neg fun hc => hle hc.1] at hother
      rw [Buffered, hother.1] at hkept
      exact hle (hlater _ _ hkept.1)
  · rintro ⟨hbehind, hahead⟩
    constructor
    · intro h1 h64
      obtain ⟨hdel, hexp, hother⟩ := handleData_other hrel (ne_of_lag h1)
      refine ⟨hdel, hexp, ?_⟩
      split at hother
      · next hc =>
        rcases hbehind h1 h64 with hle | hfull | hhas
        · exact absurd hle ((lt_of_lag h1 h64).mp hc.1)
        · omega
        · exact ⟨hother.1.trans ((insert_eq_self ..).mpr hhas.1),
            hother.2.trans ((insert_eq_self ..).mpr hhas.2)⟩
      · exact hother
    · intro h1 h63 hroom
      obtain ⟨-, -, hother⟩ := handleData_other hrel (ne_of_lead h1)
      rw [if_pos ⟨(lt_of_lead h1 h63).mpr (hahead h1 h63 hroom), hroom⟩] at hother
      rw [Buffered, hother.1, hother.2, insert_get, insert_get, if_pos rfl, if_pos rfl]
      exact ⟨rfl, rfl⟩

theorem onFrame_eq {x : Session} {f : Bytes} (hread : codecReadTunnel f = some t) (htype : t.type = ttData) :
    onFrame x f = handleData x t := by
  unfold onFrame
  rw [hread]
  exact if_pos htype

/-- After any frames, the window treats a reliable frame by its distance from the expected number
exactly if the numbers do not wrap in between. -/
theorem windowed_iff (sid : UInt16) (frames : List Bytes) {f : Bytes}
    (hread : codecReadTunnel f = some t) (htype : t.type = ttData) (hrel : t.flags &&& tfReliable ≠ 0) :
    Windowed (receiving sid frames) t (onFrame (receiving sid frames) f) ↔
      Unwrapped (receiving sid frames) t := by
  rw [onFrame_eq hread htype]
  exact handleData_windowed (receiving_later sid frames) hrel

/-- The frame with message number `n`. -/
def numbered (n : ℕ) : Bytes := buildFrame ttData 1 0 tfReliable (UInt16.ofNat n) 0 [1]

def wireNumbered (n : ℕ) : WireTunnel := ⟨ttData, 1, 0, tfReliable, UInt16.ofNat n, 0, [1], 1⟩

theorem read_numbered (n : ℕ) : codecReadTunnel (numbered n) = some (wireNumbered n) :=
  codecReadTunnel_buildFrame ttData 1 0 tfReliable (UInt16.ofNat n) 0 [1] (by decide)

theorem handleData_expected (hrel : t.flags &&& tfReliable ≠ 0) (he : t.seq = s.expectedSeq) (hooo : s.ooo = ∅) :
    (handleData s t).1.expectedSeq = s.expectedSeq + 1 ∧ (handleData s t).1.ooo = ∅ ∧
      delivered (handleData s t).2 = [(t.channelId, t.payload)] := by
  have hdrain (x : Session) (hx : x.ooo = ∅) : drain x = (x, []) := by
    rw [drain, hx]
    rfl
  rw [handleData]
  dsimp only
  rw [if_pos hrel, if_pos he, hdrain]
  · exact ⟨rfl, hooo, rfl⟩
  · exact hooo

theorem onFrame_numbered {n : ℕ} (he : s.expectedSeq = UInt16.ofNat n) (hooo : s.ooo = ∅) :
    (onFrame s (numbered n)).1.expectedSeq = UInt16.ofNat (n + 1) ∧ (onFrame s (numbered n)).1.ooo = ∅ ∧
      delivered (onFrame s (numbered n)).2 = [(0, [1])] := by
  have hframe : onFrame s (numbered n) = handleData s (wireNumbered n) := by
    unfold onFrame
    rw [read_numbered]
    exact if_pos rfl
  rw [hframe, ← ofNat16_succ, ← he]
  exact handleData_expected (t := wireNumbered n) (show tfReliable &&& tfReliable ≠ 0 by decide) he.symm hooo

theorem receiving_numbered (n : ℕ) :
    (receiving 1 ((List.range n).map numbered)).expectedSeq = UInt16.ofNat n ∧
      (receiving 1 ((List.range n).map numbered)).ooo = ∅ := by
  induction n with
  | zero => exact ⟨rfl, rfl⟩
  | succ n ih =>
    rw [List.range_succ, List.map_append, receiving, List.foldl_append]
    obtain ⟨he, hooo, -⟩ := onFrame_numbered ih.1 ih.2
    exact ⟨he, hooo⟩

/-- After three frames in order, a copy of the second one leaves the session as it is, and the sixth one is kept. -/
theorem windowed_third : (lag (receiving 1 ((List.range 3).map numbered)) (wireNumbered 1) = 2 ∧
      Windowed (receiving 1 ((List.range 3).map numbered)) (wireNumbered 1)
        (onFrame (receiving 1 ((List.range 3).map numbered)) (numbered 1))) ∧
    lead (receiving 1 ((List.range 3).map numbered)) (wireNumbered 5) = 2 ∧
      Windowed (receiving 1 ((List.range 3).map numbered)) (wireNumbered 5)
        (onFrame (receiving 1 ((List.range 3).map numbered)) (numbered 5)) := by
  obtain ⟨he, -⟩ := receiving_numbered 3
  have hlag : lag (receiving 1 ((List.range 3).map numbered)) (wireNumbered 1) = 2 := by
    rw [lag, he]
    rfl
  have hlead : lead (receiving 1 ((List.range 3).map numbered)) (wireNumbered 5) = 2 := by
    rw [lead, he]
    rfl
  refine ⟨⟨hlag, (windowed_iff 1 _ (read_numbered 1) rfl (by decide)).mpr ⟨fun _ _ => .inl ?_, fun _ hnear _ => ?_⟩⟩,
    hlead, (windowed_iff 1 _ (read_numbered 5) rfl (by decide)).mpr ⟨fun _ hnear => ?_, fun _ _ _ => ?_⟩⟩
  · rw [hlag, he]
    decide
  · rw [lead, he] at hnear
    exact absurd hnear (by decide)
  · rw [lag, he] at hnear
    exact absurd hnear (by decide)
  · rw [hlead, he]
    decide

/-- The frame was handed over when it came. -/
def HandedOver (sid : UInt16) (frames : List Bytes) (f : Bytes) (t : WireTunnel) : Prop :=
  ∃ before after, frames = before ++ f :: after ∧
    delivered (onFrame (receiving sid before) f).2 = [(t.channelId, t.payload)]

/-- After 65536 frames in order, the last of them comes once more and is put in the buffer. -/
theorem retransmission_buffered : ¬∀ (sid : UInt16) (frames : List Bytes) (f : Bytes) (t : WireTunnel),
    codecReadTunnel f = some t → t.type = ttData → t.flags &&& tfReliable ≠ 0 →
    HandedOver sid frames f t → Windowed (receiving sid frames) t (onFrame (receiving sid frames) f) := by
  intro h
  obtain ⟨he, hooo⟩ := receiving_numbered 65536
  have hhanded : HandedOver 1 ((List.range 65536).map numbered) (numbered 65535) (wireNumbered 65535) := by
    refine ⟨(List.range 65535).map numbered, [], ?_, ?_⟩
    · rw [List.range_succ, List.map_append]
      rfl
    · obtain ⟨he', hooo'⟩ := receiving_numbered 65535
      exact (onFrame_numbered he' hooo').2.2
  have hw := h 1 _ _ _ (read_numbered 65535) rfl (by decide) hhanded
  have hlag : lag (receiving 1 ((List.range 65536).map numbered)) (wireNumbered 65535) = 1 := by
    rw [lag, he]
    rfl
  rw [onFrame_eq (read_numbered 65535) rfl] at hw
  have hu := ((handleData_windowed (receiving_later 1 _) (by decide)).mp hw).behind hlag.ge (by omega)
  rw [hlag, he, Buffered, hooo] at hu
  simp at hu

end P2PServer.Session
