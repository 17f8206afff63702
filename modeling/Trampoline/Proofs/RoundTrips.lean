import Trampoline.Memory.Lemmas

/-!
# Round trips through memory

What becomes of a value that goes to memory and comes back, and of a memory whose value is read and
written back.

* `unmarshal_eq_ok_iff`: what a successful reading did;
* `unmarshal_of_marshal`: a value that is written, read, and written again;
* `marshal_of_unmarshal`, `marshal_of_unmarshal_bool`: a memory that is read and written back;
* `round_trips`: both ways, for every kind of value.
-/

namespace Trampoline

namespace Cell

variable {s : Scalar} {m m' : Memory} {offset : Nat}

theorem unmarshal_eq_ok_iff {d c : Cell s} : d.unmarshal m offset = (c, .ok ()) ↔
    s.Supported m.platform ∧
      ∃ field, Bytes.slice? m.bytes offset (s.size m.platform) = some field ∧
        s.ofBytes field = c.held := by
  rw [← Memory.get_eq_ok_iff, unmarshal]
  cases m.get s offset with
  | error e => exact ⟨nofun, nofun⟩
  | ok v => exact ⟨fun h => by cases h; rfl, fun h => by cases h; rfl⟩

/-- What was written is read, as far as the platform keeps it, whatever the cell held that reads it; and
writing that again changes nothing. -/
theorem unmarshal_of_marshal {c : Cell s} (h : c.marshal m offset = (m', .ok ())) :
    ∃ c' : Cell s, (∀ d : Cell s, d.unmarshal m' offset = (c', .ok ())) ∧
      s.ReadBack m.platform c.held c'.held ∧ c'.marshal m' offset = (m', .ok ()) := by
  obtain ⟨hs, hplatform, hsplice⟩ := Memory.put_eq_ok_iff.1 h
  have hfield := Bytes.slice?_splice?_self hsplice
  refine ⟨⟨s.ofBytes (s.toBytes (s.size m.platform) c.held)⟩, fun d => unmarshal_eq_ok_iff.2 ?_,
    Scalar.readBack_ofBytes hs c.held, Memory.put_eq_ok_iff.2 ?_⟩
  · rw [Scalar.length_toBytes] at hfield
    rw [hplatform]
    exact ⟨hs, _, hfield, rfl⟩
  · rw [hplatform, Scalar.toBytes_ofBytes_toBytes hs]
    exact ⟨hs, rfl, Bytes.splice?_of_slice? hfield⟩

/-- What was read is written back as it was. -/
theorem marshal_of_unmarshal {d c : Cell s} (h : d.unmarshal m offset = (c, .ok ())) (hs : s ≠ .bool) :
    c.marshal m offset = (m, .ok ()) := by
  obtain ⟨hsupported, field, hfield, hheld⟩ := unmarshal_eq_ok_iff.1 h
  have hlen := Bytes.length_of_slice? hfield
  refine Memory.put_eq_ok_iff.2 ⟨hsupported, rfl, ?_⟩
  rw [← hheld, Scalar.toBytes_ofBytes hsupported hs hlen]
  exact Bytes.splice?_of_slice? (hlen.symm ▸ hfield)

/-- Of a truth value only the lowest bit is written back, and the rest of its four bytes is zero. -/
theorem marshal_of_unmarshal_bool {d c : Cell .bool} (h : d.unmarshal m offset = (c, .ok ())) :
    ∃ field m', Bytes.slice? m.bytes offset 4 = some field ∧ m'.platform = m.platform ∧
      Bytes.splice? m.bytes offset (Bytes.ofNat 4 (field.toNat % 2)) = some m'.bytes ∧
      c.marshal m offset = (m', .ok ()) := by
  obtain ⟨hs, field, hfield, hheld⟩ := unmarshal_eq_ok_iff.1 h
  obtain ⟨hinside, -⟩ := Bytes.slice?_eq_some_iff.1 hfield
  obtain ⟨m', hput⟩ := Memory.put_of_fits ⟨hs, hinside⟩ c.held
  obtain ⟨-, hplatform, hsplice⟩ := Memory.put_eq_ok_iff.1 hput
  have hsize : Scalar.bool.size m.platform = 4 := by simp only [Scalar.size, Scalar.storedBits]
  rw [← hheld, Scalar.toBytes_ofBytes_bool, hsize] at hsplice
  rw [hsize] at hfield
  exact ⟨field, m', hfield, hplatform, hsplice, hput⟩

/-- **Round trips through memory**, for every kind of value, on every platform and at every offset. What a
cell wrote is read back as the platform keeps it, and writing that again leaves the memory as it is; what a
cell read is written back as it was, but for truth values, of which the lowest bit is. -/
theorem round_trips (s : Scalar) (m : Memory) (offset : Nat) :
    (∀ (c : Cell s) (m' : Memory), c.marshal m offset = (m', .ok ()) →
      ∃ c' : Cell s, (∀ d : Cell s, d.unmarshal m' offset = (c', .ok ())) ∧
        s.ReadBack m.platform c.held c'.held ∧ c'.marshal m' offset = (m', .ok ())) ∧
    (∀ d c : Cell s, d.unmarshal m offset = (c, .ok ()) →
      (s ≠ .bool → c.marshal m offset = (m, .ok ())) ∧
      (s = .bool → ∃ field m', Bytes.slice? m.bytes offset 4 = some field ∧ m'.platform = m.platform ∧
        Bytes.splice? m.bytes offset (Bytes.ofNat 4 (field.toNat % 2)) = some m'.bytes ∧
        c.marshal m offset = (m', .ok ()))) := by
  refine ⟨fun c m' h => unmarshal_of_marshal h, fun d c h => ⟨marshal_of_unmarshal h, ?_⟩⟩
  rintro rfl
  exact marshal_of_unmarshal_bool h

/-- Six bytes on a platform whose `long` has 32 bits. -/
def sixBytes : Memory := ⟨⟨.x86_64, .windows, 64, 32⟩, [7, 7, 7, 7, 7, 7], by decide⟩

theorem round_trips_sixBytes :
    (∃ m' c', (Cell.mk (-2) : Cell .long).marshal sixBytes 1 = (m', .ok ()) ∧
      m'.bytes = [7, 0xfe, 0xff, 0xff, 0xff, 7] ∧ (zero .long).unmarshal m' 1 = (c', .ok ()) ∧
      c'.held = Width.w32.signExtend (-2) ∧ c'.marshal m' 1 = (m', .ok ())) ∧
    (∃ c, (zero .i16).unmarshal sixBytes 3 = (c, .ok ()) ∧ c.marshal sixBytes 3 = (sixBytes, .ok ())) ∧
    ∃ c m', (zero .bool).unmarshal sixBytes 2 = (c, .ok ()) ∧ c.marshal sixBytes 2 = (m', .ok ()) ∧
      m'.bytes = [7, 7, 1, 0, 0, 0] := by
  refine ⟨?_, ?_, ?_⟩
  · obtain ⟨c', hread, ⟨w, hw, hheld⟩, hagain⟩ :=
      (round_trips .long sixBytes 1).1 (Cell.mk (-2)) _ rfl
    cases hw
    exact ⟨_, c', rfl, by decide, hread _, hheld, hagain⟩
  · exact ⟨_, rfl, ((round_trips .i16 sixBytes 3).2 (zero .i16) _ rfl).1 (by decide)⟩
  · obtain ⟨field, m', hfield, -, hsplice, hwrite⟩ :=
      ((round_trips .bool sixBytes 2).2 (zero .bool) _ rfl).2 rfl
    cases hfield
    exact ⟨_, m', rfl, hwrite, (Option.some.inj hsplice).symm.trans (by decide)⟩

end Cell

end Trampoline
