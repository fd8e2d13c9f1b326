import P2PServer.ClientRun

/-! The key of a pair of clients (`get_tunnel_key`). Both ends hash the same text, but two pairs
share a text when a colon inside a uuid can be taken for the separator. -/
namespace P2PServer.P2PClient
open ByteStrings

def colon : UInt8 := 0x3a

def lower (u v : Bytes) : Bytes := if u < v then u else v

def upper (u v : Bytes) : Bytes := if u < v then v else u

/-- What goes into the HMAC on client `u` for the peer `v`. -/
def tunnelMessage (u v : Bytes) : Bytes := tunnelKeyPrefix ++ lower u v ++ [colon] ++ upper u v

theorem pairKey_eq (secret u v : Bytes) :
    pairKey secret u v = Crypto.hmacSha256 secret (tunnelMessage u v) := rfl

theorem lower_comm (u v : Bytes) : lower u v = lower v u := by
  rcases Std.lt_trichotomy u v with h | h | h
  · rw [lower, lower, if_pos h, if_neg (List.lt_asymm h)]
  · rw [h]
  · rw [lower, lower, if_neg (List.lt_asymm h), if_pos h]

theorem upper_comm (u v : Bytes) : upper u v = upper v u := by
  rcases Std.lt_trichotomy u v with h | h | h
  · rw [upper, upper, if_pos h, if_neg (List.lt_asymm h)]
  · rw [h]
  · rw [upper, upper, if_neg (List.lt_asymm h), if_pos h]

theorem pair_lower_upper (u v : Bytes) : s(lower u v, upper u v) = s(u, v) := by
  unfold lower upper
  split
  · rfl
  · exact Sym2.eq_swap

theorem tunnelMessage_comm (u v : Bytes) : tunnelMessage u v = tunnelMessage v u := by
  rw [tunnelMessage, tunnelMessage, lower_comm, upper_comm]

theorem ordered_iff (u v u' v' : Bytes) :
    s(u, v) = s(u', v') ↔ lower u v = lower u' v' ∧ upper u v = upper u' v' := by
  constructor
  · intro h
    rcases Sym2.eq_iff.mp h with ⟨rfl, rfl⟩ | ⟨rfl, rfl⟩
    · exact ⟨rfl, rfl⟩
    · exact ⟨lower_comm u v, upper_comm u v⟩
  · rintro ⟨hl, hu⟩
    rw [← pair_lower_upper u v, ← pair_lower_upper u' v', hl, hu]

/-- The smaller uuid of the second pair goes on where that of the first pair ends, with a colon
and a text that the larger uuid of the first pair starts with, before a colon of its own. -/
def Overlap (u v u' v' : Bytes) : Prop :=
  ∃ w, lower u' v' = lower u v ++ colon :: w ∧ upper u v = w ++ colon :: upper u' v'

theorem tunnelMessage_eq_iff (u v u' v' : Bytes) :
    tunnelMessage u v = tunnelMessage u' v' ↔
      s(u, v) = s(u', v') ∨ Overlap u v u' v' ∨ Overlap u' v' u v := by
  rw [ordered_iff]
  simp only [tunnelMessage, List.append_assoc, List.append_cancel_left_eq, List.singleton_append]
  constructor
  · intro h
    rcases List.append_eq_append_iff.mp h with ⟨w, hl, hu⟩ | ⟨w, hl, hu⟩
    · cases w with
      | nil =>
        rw [List.append_nil] at hl
        exact .inl ⟨hl.symm, (List.cons.inj hu).2⟩
      | cons b w =>
        obtain ⟨rfl, hrest⟩ := List.cons.inj hu
        exact .inr (.inl ⟨w, hl, hrest⟩)
    · cases w with
      | nil =>
        rw [List.append_nil] at hl
        exact .inl ⟨hl, (List.cons.inj hu).2.symm⟩
      | cons b w =>
        obtain ⟨rfl, hrest⟩ := List.cons.inj hu
        exact .inr (.inr ⟨w, hl, hrest⟩)
  · rintro (⟨hl, hu⟩ | ⟨w, hl, hu⟩ | ⟨w, hl, hu⟩)
    · rw [hl, hu]
    · rw [hl, hu, List.append_assoc]
      rfl
    · rw [hl, hu, List.append_assoc]
      rfl

theorem Overlap.ne {u v u' v' : Bytes} (h : Overlap u v u' v') : s(u, v) ≠ s(u', v') := by
  obtain ⟨w, hl, -⟩ := h
  intro hs
  have hlen := congrArg List.length (((ordered_iff u v u' v').mp hs).1.trans hl)
  rw [List.length_append, List.length_cons] at hlen
  omega

/-- Exactly when the text tells two pairs apart. -/
theorem tunnelMessage_pairwise (u v u' v' : Bytes) :
    (tunnelMessage u v = tunnelMessage u' v' ↔ s(u, v) = s(u', v')) ↔
      ¬Overlap u v u' v' ∧ ¬Overlap u' v' u v := by
  rw [tunnelMessage_eq_iff]
  constructor
  · intro h
    exact ⟨fun ho => ho.ne (h.mp (.inr (.inl ho))), fun ho => ho.ne (h.mp (.inr (.inr ho))).symm⟩
  · rintro ⟨h, h'⟩
    constructor
    · rintro (hs | ho | ho)
      · exact hs
      · exact absurd ho h
      · exact absurd ho h'
    · exact .inl

/-- Uuids without a colon are never mixed up. -/
theorem tunnelMessage_inj_of_no_colon {u v u' v' : Bytes} (h : colon ∉ u ∧ colon ∉ v)
    (h' : colon ∉ u' ∧ colon ∉ v') : tunnelMessage u v = tunnelMessage u' v' ↔ s(u, v) = s(u', v') := by
  have hlower {a b : Bytes} (hab : colon ∉ a ∧ colon ∉ b) : colon ∉ lower a b := by
    unfold lower
    split
    · exact hab.1
    · exact hab.2
  rw [tunnelMessage_eq_iff]
  constructor
  · rintro (hs | ⟨w, hl, -⟩ | ⟨w, hl, -⟩)
    · exact hs
    · exact absurd (hl ▸ List.mem_append_right _ List.mem_cons_self) (hlower h')
    · exact absurd (hl ▸ List.mem_append_right _ List.mem_cons_self) (hlower h)
  · exact .inl

/-- The uuids that `start` and `connect` let two clients use for each other. -/
structure Admitted (u v : Bytes) : Prop where
  own : u ≠ [] ∧ u.length ≤ ProtoDef.maxUuidLen
  peer : v ≠ [] ∧ v.length ≤ ProtoDef.maxUuidLen
  different : u ≠ v

/-- The pairs `a`, `b:c` and `a:b`, `c` share their text. -/
theorem tunnelMessage_shared : ¬∀ u v u' v', Admitted u v → Admitted u' v' →
    (tunnelMessage u v = tunnelMessage u' v' ↔ s(u, v) = s(u', v')) := by
  intro h
  have hs := (h [0x61] [0x62, colon, 0x63] [0x61, colon, 0x62] [0x63] ⟨by decide, by decide, by decide⟩
    ⟨by decide, by decide, by decide⟩).mp (by decide)
  rcases Sym2.eq_iff.mp hs with h | h
  · exact absurd h.1 (by decide)
  · exact absurd h.1 (by decide)

end P2PServer.P2PClient
