import Trampoline.Proofs.StubExecution
import Trampoline.Stub.Lemmas

/-!
# Native functions behind their stubs

For every request that gets a stub: how the stub calls the native function, and what its caller gets.

* `exists_stubRun`: the linked stub runs, wherever it is put and whoever enters it;
* `native_call`: the arguments of the native function, the alignment of the stack, and what is kept;
* `native_result`: the result, whether or not the error code is saved.
-/

namespace Trampoline

namespace Stub

/-- A stub that is linked to run at `origin` does there what `StubRun` says. -/
theorem exists_stubRun {p : Platform} {saver : Address} {r : Request} {s : Stub}
    (h : ofRequest p saver r = .ok s) (origin : Address) {buffer : Bytes}
    (hbuffer : buffer.length = s.size) :
    ∃ ret bytes, Return.ofSlot? p r.signature.ret = some ret ∧
      s.code.linkInto? origin.toNat buffer = some bytes ∧
      ∀ stack routines m, Enters bytes ⟨origin, s.size⟩ stack m →
        SysV.Conform ⟨origin, s.size⟩ stack routines →
        ∃ e native others, StubRun ⟨origin, s.size⟩ stack routines
          (countSlots p .integer r.signature.params) ret r.address (saverOf saver r) m e native
          others := by
  obtain ⟨ret, hsupported, rfl⟩ := ofRequest_eq_ok_iff.1 h
  refine ⟨ret, _, hsupported.result, Code.linkInto?_assemble _ _ hbuffer, ?_⟩
  intro stack routines m he hc
  exact stubRun_program hsupported.integers he
    (linked_eq_encodeAll fun bs => raw_not_mem_program _ _ _ _ bs) hc

/-- Routines that give back what the convention wants and spoil everything that is theirs. -/
def spoiling : Routines := fun n m =>
  { m with
    ip := m.memory.word m.rsp
    gpr := fun r =>
      if r = .rsp then m.rsp + 8
      else if r ∈ SysV.calleeSaved then m.gpr r else BitVec.ofNat 64 (0x99 + n)
    xmm := fun _ => BitVec.ofNat 128 n }

theorem conform_spoiling (code : Span) (stack : Stack) : SysV.Conform code stack spoiling := by
  intro n m
  refine ⟨rfl, rfl, fun r hr => ?_, fun _ _ => rfl, fun _ _ _ => rfl⟩
  have hne : r ≠ .rsp := ne_of_mem_of_not_mem hr (by decide)
  exact (if_neg hne).trans (if_pos hr)

/-- A machine that enters code at `0x10000`. Its registers hold their numbers, but for the stack
pointer. -/
def entering (bytes : Bytes) : Machine where
  ip := 0x10000
  gpr r := if r = .rsp then 0x7ff8 else r.number.setWidth 64
  xmm r := r.number.setWidth 128
  memory := Store.write (fun _ => 0) 0x10000 bytes

theorem rsp_entering (bytes : Bytes) : (entering bytes).rsp = 0x7ff8 := rfl

theorem enters_entering {bytes : Bytes} (h : bytes.length ≤ 0x1000) :
    Enters bytes ⟨0x10000, bytes.length⟩ ⟨0x7000, 0x8000, by decide⟩ (entering bytes) where
  ip := rfl
  size := rfl
  loaded := Store.read_write _ _ (by omega)
  apart := by
    rintro a ⟨-, hhigh⟩ hcode
    have hd : (a - 0x10000).toNat < bytes.length := hcode
    simp only at hhigh
    bv_omega
  room := by rw [rsp_entering]; decide
  top := by rw [rsp_entering]; decide

/-- **The call of the native function.** Whoever enters a linked stub with the stack aligned as at every
entry, and whatever the routines do that the stub calls: the stub runs to its last byte and returns;
the first call goes to the native function, whose integer arguments are those of the stub without the
two context words and whose floating-point registers are those of the stub; the stack is aligned at
every call; and the stub keeps what the convention wants kept. -/
theorem native_call {p : Platform} {saver : Address} {r : Request} {s : Stub}
    (h : ofRequest p saver r = .ok s) (origin : Address) {buffer : Bytes}
    (hbuffer : buffer.length = s.size) :
    ∃ bytes, s.code.linkInto? origin.toNat buffer = some bytes ∧
      ∀ stack routines m, Enters bytes ⟨origin, s.size⟩ stack m →
        SysV.Conform ⟨origin, s.size⟩ stack routines → m.rsp.toNat % 16 = 8 →
        ∃ e native others, Returns ⟨origin, s.size⟩ routines m e ∧ e.calls = native :: others ∧
          native.entered.ip = r.address ∧
          (∀ i < countSlots p .integer r.signature.params,
            SysV.integerArgument native.entered i = SysV.integerArgument m (i + 2)) ∧
          native.entered.xmm = m.xmm ∧
          (∀ c ∈ e.calls, (c.entered.rsp.toNat + 8) % 16 = 0) ∧
          SysV.Kept ⟨origin, s.size⟩ stack m e.machine := by
  obtain ⟨ret, bytes, -, hlink, hrun⟩ := exists_stubRun h origin hbuffer
  refine ⟨bytes, hlink, fun stack routines m he hc halign => ?_⟩
  obtain ⟨e, native, others, run⟩ := hrun stack routines m he hc
  refine ⟨e, native, others, run.returns, run.calls, run.target, run.arguments, run.floats,
    fun c hmem => ?_, run.kept⟩
  have hroom := he.room
  obtain ⟨-, hd⟩ := depth_bounds ret
  have hmod := depth_mod ret
  rw [run.rsp c (run.calls ▸ hmem), toNat_sub_depth (by omega)]
  omega

/-- A function of two integers and a double, called with its context words before them. -/
def mixedRequest : Request :=
  ⟨"mixed", ⟨[⟨.i64, false⟩, ⟨.f64, false⟩, ⟨.i32, false⟩], ⟨.f64, false⟩, .default⟩, 0x4000, true⟩

theorem native_call_mixed :
    ∃ s bytes e native others, ofRequest .host 0x5000 mixedRequest = .ok s ∧
      s.code.linkInto? 0x10000 (List.replicate s.size 0) = some bytes ∧
      Returns ⟨0x10000, s.size⟩ spoiling (entering bytes) e ∧ e.calls = native :: others ∧
      native.entered.ip = 0x4000 ∧ native.entered.gpr .rdi = 2 ∧ native.entered.gpr .rsi = 1 ∧
      native.entered.xmm .xmm0 = 0 ∧ (native.entered.rsp.toNat + 8) % 16 = 0 ∧
      e.machine.rsp = 0x8000 := by
  obtain ⟨s, hs⟩ : ∃ s, ofRequest .host 0x5000 mixedRequest = .ok s := ⟨_, rfl⟩
  have hsize : s.size ≤ 0x1000 := by cases hs; decide
  have hbuffer : (List.replicate s.size (0 : Byte)).length = s.size := List.length_replicate
  obtain ⟨bytes, hlink, hrun⟩ := native_call hs 0x10000 hbuffer
  have hlen : bytes.length = s.size := (Code.length_of_linkInto? hlink).2
  obtain ⟨e, native, others, hreturns, hcalls, hip, hargs, hxmm, halign, hkept⟩ :=
    hrun _ spoiling (entering bytes) (hlen ▸ enters_entering (by omega)) (conform_spoiling _ _)
      (by rw [rsp_entering]; decide)
  refine ⟨s, bytes, e, native, others, hs, hlink, hreturns, hcalls, hip, hargs 0 (by decide),
    hargs 1 (by decide), by rw [hxmm]; rfl, halign native (hcalls ▸ List.mem_cons_self),
    hkept.rsp⟩

/-- A run of a stub, linked to run somewhere and entered by a caller among routines that follow the
convention. -/
def Runs (s : Stub) (routines : Routines) (m : Machine) (e : Execution) : Prop :=
  ∃ (origin : Address) (buffer bytes : Bytes) (stack : Stack),
    s.code.linkInto? origin.toNat buffer = some bytes ∧ Enters bytes ⟨origin, s.size⟩ stack m ∧
      SysV.Conform ⟨origin, s.size⟩ stack routines ∧ Returns ⟨origin, s.size⟩ routines m e

theorem Runs.result {p : Platform} {saver : Address} {r : Request} {s : Stub} {ret : Return}
    {routines : Routines} {m : Machine} {e : Execution} {native : Call} {others : List Call}
    (hrun : s.Runs routines m e) (h : ofRequest p saver r = .ok s)
    (hret : Return.ofSlot? p r.signature.ret = some ret) (hcalls : e.calls = native :: others) :
    ret.read e.machine = ret.extended native.left := by
  obtain ⟨origin, buffer, bytes, stack, hlink, he, hc, hreturns⟩ := hrun
  obtain ⟨hbuffer, -⟩ := Code.length_of_linkInto? hlink
  obtain ⟨ret', bytes', hret', hlink', hruns⟩ := exists_stubRun h origin hbuffer
  cases hret.symm.trans hret'
  cases hlink.symm.trans hlink'
  obtain ⟨e', native', others', run⟩ := hruns stack routines m he hc
  cases hreturns.unique run.returns
  cases hcalls.symm.trans run.calls
  exact run.result

/-- **The result of the native function.** Whoever enters a linked stub, and whatever the routines do
that it calls: the native function is called first, the routine that saves the error code is called
after it if that is asked for, nothing else is called, and the caller gets what the native function
gave back. So the stub that saves the error code and the one that does not give the same result
whenever the native function does. -/
theorem native_result {p : Platform} {saver : Address} {r : Request} {s : Stub}
    (h : ofRequest p saver r = .ok s) (origin : Address) {buffer : Bytes}
    (hbuffer : buffer.length = s.size) :
    ∃ ret bytes, Return.ofSlot? p r.signature.ret = some ret ∧
      s.code.linkInto? origin.toNat buffer = some bytes ∧
      (∀ stack routines m, Enters bytes ⟨origin, s.size⟩ stack m →
        SysV.Conform ⟨origin, s.size⟩ stack routines →
        ∃ e native others, Returns ⟨origin, s.size⟩ routines m e ∧ e.calls = native :: others ∧
          native.entered.ip = r.address ∧ native.left = routines 0 native.entered ∧
          others.map (·.entered.ip) = (if r.savesError then [saver] else []) ∧
          ret.read e.machine = ret.extended native.left) ∧
      ∀ b, ∃ s', ofRequest p saver { r with savesError := b } = .ok s' ∧
        ∀ {routines m e routines' m' e' native native' others others'},
          s.Runs routines m e → s'.Runs routines' m' e' → e.calls = native :: others →
          e'.calls = native' :: others' → ret.Same native.left native'.left →
          ret.read e'.machine = ret.read e.machine := by
  obtain ⟨ret, bytes, hret, hlink, hrun⟩ := exists_stubRun h origin hbuffer
  refine ⟨ret, bytes, hret, hlink, fun stack routines m he hc => ?_, fun b => ?_⟩
  · obtain ⟨e, native, others, run⟩ := hrun stack routines m he hc
    refine ⟨e, native, others, run.returns, run.calls, run.target, run.routine, ?_, run.result⟩
    rw [run.saver, saverOf]
    split <;> rfl
  · obtain ⟨s', h'⟩ := ofRequest_savesError b h
    refine ⟨s', h', ?_⟩
    intro routines m e routines' m' e' native native' others others' hruns hruns' hcalls hcalls' hsame
    rw [hruns.result h hret hcalls, hruns'.result h' hret hcalls', hsame.extended]

/-- A function that takes nothing and gives back a byte. -/
def byteRequest : Request := ⟨"byte", ⟨[], ⟨.i8, false⟩, .default⟩, 0x4000, true⟩

theorem native_result_byte :
    ∃ s bytes e native other, ofRequest .host 0x5000 byteRequest = .ok s ∧
      s.code.linkInto? 0x10000 (List.replicate s.size 0) = some bytes ∧
      Returns ⟨0x10000, s.size⟩ spoiling (entering bytes) e ∧ e.calls = [native, other] ∧
      native.entered.ip = 0x4000 ∧ native.left.gpr .rax = 0x99 ∧ other.entered.ip = 0x5000 ∧
      (Return.value (.int .w8)).read e.machine = 0xffffff99 := by
  obtain ⟨s, hs⟩ : ∃ s, ofRequest .host 0x5000 byteRequest = .ok s := ⟨_, rfl⟩
  have hsize : s.size ≤ 0x1000 := by cases hs; decide
  have hbuffer : (List.replicate s.size (0 : Byte)).length = s.size := List.length_replicate
  obtain ⟨ret, bytes, hret, hlink, hrun, -⟩ := native_result hs 0x10000 hbuffer
  have hlen : bytes.length = s.size := (Code.length_of_linkInto? hlink).2
  obtain ⟨e, native, others, hreturns, hcalls, hip, hroutine, hothers, hresult⟩ :=
    hrun _ spoiling (entering bytes) (hlen ▸ enters_entering (by omega)) (conform_spoiling _ _)
  cases hret
  obtain ⟨other, rfl⟩ : ∃ other, others = [other] :=
    List.length_eq_one_iff.1 (by simpa [byteRequest] using congrArg List.length hothers)
  have hrax : native.left.gpr .rax = 0x99 := by rw [hroutine]; rfl
  have hextended : (Return.value (.int .w8)).extended native.left = 0xffffff99 := by
    rw [Return.extended, show native.left.gpr SysV.integerResult = 0x99 from hrax]
    decide
  exact ⟨s, bytes, e, native, other, hs, hlink, hreturns, hcalls, hip, hrax,
    by simpa [byteRequest] using hothers, hresult.trans hextended⟩

end Stub

end Trampoline
