import Mathlib.Data.Nat.Bitwise
import HtcwFrameArq.Firmware

/-!
# Requests

What a peer of the firmware can ask for, and what it gets: the messages that the functions for the
structs of `interface.h` write, and what `handle_command` does with them, pin by pin.
-/

namespace HtcwFrameArq

namespace Firmware

open BuffersGenC hiding Outcome
open Streams

/-! ## Pins -/

/-- A pin of a mask. -/
theorem bit_toNat {i : ℕ} (hi : i < 64) : (bit i).toNat = 2 ^ i := by
  rw [bit, UInt64.toNat_shiftLeft, UInt64.toNat_ofNat', Nat.mod_eq_of_lt (by omega : i < 2 ^ 64),
    Nat.mod_eq_of_lt hi]
  have hlt : 2 ^ i < 2 ^ 64 := Nat.pow_lt_pow_right (by decide) hi
  rw [UInt64.toNat_one, Nat.one_shiftLeft, Nat.mod_eq_of_lt hlt]

theorem and_bit (mask : UInt64) {i : ℕ} (hi : i < 64) :
    mask &&& bit i ≠ 0 ↔ mask.toNat.testBit i = true := by
  rw [Ne, ← UInt64.toNat_inj, UInt64.toNat_and, bit_toNat hi, UInt64.toNat_zero, Nat.and_two_pow]
  cases mask.toNat.testBit i <;> simp

/-- The pins of a mask that are high. -/
def highPins (levels : ℕ → Bool) (mask : UInt64) : ℕ :=
  Nat.ofBits fun i : Fin 64 => mask.toNat.testBit i && levels i

theorem gpioGet_testBit (levels : ℕ → Bool) (mask : UInt64) {n : ℕ} (hn : n ≤ 64) (i : ℕ) :
    (gpioGet levels mask n).toNat.testBit i =
      (decide (i < n) && (mask.toNat.testBit i && levels i)) := by
  induction n with
  | zero => simp [gpioGet]
  | succ n ih =>
    have hstep : gpioGet levels mask (n + 1) =
        if mask &&& bit n ≠ 0 then
          if levels n then gpioGet levels mask n ||| bit n else gpioGet levels mask n
        else gpioGet levels mask n := by
      rw [gpioGet, List.range_succ, List.foldl_concat]
      rfl
    have hbit := and_bit mask (show n < 64 by omega)
    have hih := ih (by omega)
    have hlast : i ≠ n → decide (i < n + 1) = decide (i < n) := by
      intro hi
      exact decide_eq_decide.mpr (by omega)
    rw [hstep]
    split_ifs with hmask hlevel
    · rw [UInt64.toNat_or, Nat.testBit_or, bit_toNat (by omega), Nat.testBit_two_pow, hih]
      by_cases hi : i = n
      · subst hi
        simp [hbit.mp hmask, hlevel]
      · rw [hlast hi, decide_eq_false (Ne.symm hi), Bool.or_false]
    · rw [hih]
      by_cases hi : i = n
      · subst hi
        simp [hlevel]
      · rw [hlast hi]
    · rw [hih]
      by_cases hi : i = n
      · subst hi
        have hzero : mask.toNat.testBit i = false := by
          simpa using fun h => hmask (hbit.mpr h)
        simp [hzero]
      · rw [hlast hi]

theorem gpioGet_eq (levels : ℕ → Bool) (mask : UInt64) :
    (gpioGet levels mask 64).toNat = highPins levels mask := by
  refine Nat.eq_of_testBit_eq fun i => ?_
  rw [gpioGet_testBit levels mask (Nat.le_refl 64)]
  by_cases hi : i < 64
  · rw [highPins, Nat.testBit_ofBits_lt _ _ hi, decide_eq_true hi, Bool.true_and]
  · rw [highPins, Nat.testBit_ofBits_ge _ _ (by omega), decide_eq_false hi, Bool.false_and]

/-- What is done to the pins of a mask. -/
theorem gpioSet_actions (mask values : UInt64) : (gpioSet mask values).filterMap Output.action =
    ((List.range 64).filter fun i => mask.toNat.testBit i).map fun i =>
      .digitalWrite i (values.toNat.testBit i) := by
  have hpins : ∀ is : List ℕ, (∀ i ∈ is, i < 64) → (is.flatMap fun i =>
      if mask &&& bit i ≠ 0 then
        let line := "GPIO set level request for " ++ toString i
        if values &&& bit i ≠ 0 then
          [Output.println (line ++ " to on"), .pin (.digitalWrite i true)]
        else [.println (line ++ " to off"), .pin (.digitalWrite i false)]
      else []).filterMap Output.action = (is.filter fun i => mask.toNat.testBit i).map fun i =>
        .digitalWrite i (values.toNat.testBit i) := by
    intro is his
    induction is with
    | nil => rfl
    | cons i is ih =>
      obtain ⟨hi, his⟩ := List.forall_mem_cons.mp his
      rw [List.flatMap_cons, List.filterMap_append, ih his, List.filter_cons]
      by_cases hmask : mask &&& bit i ≠ 0
      · rw [if_pos hmask, if_pos ((and_bit mask hi).mp hmask), List.map_cons]
        by_cases hvalue : values &&& bit i ≠ 0
        · rw [if_pos hvalue, (and_bit values hi).mp hvalue]
          rfl
        · have hlow : values.toNat.testBit i = false := by
            simpa using fun h => hvalue ((and_bit values hi).mpr h)
          rw [if_neg hvalue, hlow]
          rfl
      · rw [if_neg hmask, if_neg fun h => hmask ((and_bit mask hi).mpr h)]
        rfl
  exact hpins (List.range 64) fun i hi => List.mem_range.mp hi

theorem gpioGetLines_actions (mask : UInt64) :
    (gpioGetLines mask).filterMap Output.action = [] := by
  rw [gpioGetLines, List.filterMap_filterMap, List.filterMap_eq_nil_iff]
  intro i _
  split_ifs <;> rfl

/-! ## Requests -/

/-- What a peer can ask for. Random numbers are left out, as in `handleCommand`. -/
inductive Request : Type where
  | gpioGet (mask : UInt64) : Request
  | gpioSet (mask values : UInt64) : Request
  | gpioMode (gpio : UInt8) (mode : PinMode) : Request
  deriving DecidableEq

/-- `st_gpio_mode_t` -/
def PinMode.value : PinMode → Int
  | input => 0
  | inputPullup => 1
  | inputPulldown => 2
  | output => 3
  | outputOpenDrain => 4

namespace Request

/-- The command. -/
def cmd : Request → UInt8
  | gpioGet _ => cmdGpioGet
  | gpioSet _ _ => cmdGpioSet
  | gpioMode _ _ => cmdGpioMode

/-- The struct of the message. -/
def struct : Request → String
  | gpioGet _ => "st_gpio_get_message_t"
  | gpioSet _ _ => "st_gpio_set_message_t"
  | gpioMode _ _ => "st_gpio_mode_message_t"

/-- The object. -/
def object : Request → Value
  | gpioGet mask => .record [.bits mask.toNat]
  | gpioSet mask values => .record [.bits mask.toNat, .bits values.toNat]
  | gpioMode gpio mode => .record [.bits gpio.toNat, .enum mode.value]

/-- The message on the wire. -/
def message (r : Request) : UInt8 × List UInt8 := (r.cmd, (codecOf r.struct).encode r.object)

/-- What the firmware is to answer. -/
def response (b : Board) : Request → Option (UInt8 × List UInt8)
  | gpioGet mask => some (cmdGpioGetResponse, (codecOf "st_gpio_get_response_message_t").encode
      (.record [.bits (highPins b.levels mask)]))
  | _ => none

/-- What it is to do. -/
def effects : Request → List PinAction
  | gpioSet mask values => ((List.range 64).filter fun i => mask.toNat.testBit i).map fun i =>
      .digitalWrite i (values.toNat.testBit i)
  | gpioMode gpio mode => [.pinMode gpio.toNat mode]
  | _ => []

theorem struct_mem (r : Request) : r.struct ∈ interfaceStructs.map Prod.fst := by
  rw [interface_names]
  cases r <;> simp [struct, messageCodecs]

theorem valid (r : Request) : (codecOf r.struct).Valid r.object := by
  cases r with
  | gpioGet mask =>
    rw [struct, codecOf_eq ("st_gpio_get_message_t", [bitsCodec 8 false]) (by simp [messageCodecs])]
    exact ⟨_, rfl, .cons ⟨_, rfl, mask.toNat_lt⟩ .nil⟩
  | gpioSet mask values =>
    rw [struct, codecOf_eq ("st_gpio_set_message_t", [bitsCodec 8 false, bitsCodec 8 false])
      (by simp [messageCodecs])]
    exact ⟨_, rfl, .cons ⟨_, rfl, mask.toNat_lt⟩ (.cons ⟨_, rfl, values.toNat_lt⟩ .nil)⟩
  | gpioMode gpio mode =>
    rw [struct, codecOf_eq
      ("st_gpio_mode_message_t", [bitsCodec 1 false, enumCodec "uint8_t" false])
      (by simp [messageCodecs])]
    exact ⟨_, rfl, .cons ⟨_, rfl, gpio.toNat_lt⟩
      (.cons ⟨_, rfl, by cases mode <;> decide⟩ .nil)⟩

/-- The payload of a request is read as its object, whatever stands behind it. -/
theorem received_eq (r : Request) {old : Value} (hold : (codecOf r.struct).Room old) :
    received r.struct old r.message.2 = some r.object := by
  obtain ⟨v, hsame, htakes⟩ := (codecOf r.struct).decode_encode r.valid hold
  have hsupplies := reading_supplies r.message.2 []
  rw [List.append_nil] at hsupplies
  have hrun : ((codecOf r.struct).decode old).run (readByte onReadBuffer) r.message.2 = _ :=
    htakes.run hsupplies
  rw [received, hrun, codecOf_exact r.struct_mem _ _ hsame]
  rfl

theorem cmd_ne (r : Request) : r.cmd ≠ cmdRng := by
  cases r with
  | gpioGet _ => exact (by decide : cmdGpioGet ≠ cmdRng)
  | gpioSet _ _ => exact (by decide : cmdGpioSet ≠ cmdRng)
  | gpioMode _ _ => exact (by decide : cmdGpioMode ≠ cmdRng)

theorem answer_message (b : Board) (r : Request) : answer b r.message = r.response b := by
  have hreceived := r.received_eq (b.stack_room r.struct r.struct_mem)
  have hcmd : r.message.1 = r.cmd := rfl
  rw [answer, hcmd]
  cases r with
  | gpioGet mask =>
    rw [cmd, if_pos rfl]
    refine (congrArg (Option.map _) hreceived).trans ?_
    have hmask : gpioGetResponse b.levels (object (gpioGet mask)) =
        .record [.bits (highPins b.levels mask)] := by
      rw [← gpioGet_eq]
      exact congrArg (fun m => Value.record [.bits (Firmware.gpioGet b.levels m 64).toNat])
        UInt64.ofNat_toNat
    rw [Option.map_some, hmask]
    rfl
  | gpioSet mask values =>
    rw [cmd, if_neg (by decide)]
    rfl
  | gpioMode gpio mode =>
    rw [cmd, if_neg (by decide)]
    rfl

theorem actions_message (b : Board) (r : Request) : actions b r.message = r.effects := by
  have hreceived := r.received_eq (b.stack_room r.struct r.struct_mem)
  have hcmd : r.message.1 = r.cmd := rfl
  rw [actions, outputs, hcmd]
  cases r with
  | gpioGet mask =>
    rw [cmd, if_pos rfl]
    refine (congrArg (fun o => List.filterMap Output.action ((Option.map (fun msg =>
      gpioGetLines (UInt64.ofNat (field msg 0).toBits)) o).getD [])) hreceived).trans ?_
    exact gpioGetLines_actions _
  | gpioSet mask values =>
    rw [cmd, if_neg (by decide), if_pos rfl]
    refine (congrArg (fun o => List.filterMap Output.action
      ((Option.map gpioSetOutputs o).getD [])) hreceived).trans ?_
    have hset : gpioSetOutputs (object (gpioSet mask values)) = Firmware.gpioSet mask values :=
      congrArg₂ Firmware.gpioSet UInt64.ofNat_toNat UInt64.ofNat_toNat
    rw [Option.map_some, Option.getD_some, hset, gpioSet_actions]
    rfl
  | gpioMode gpio mode =>
    rw [cmd, if_neg (by decide), if_neg (by decide), if_pos rfl]
    refine (congrArg (fun o => List.filterMap Output.action
      ((Option.map gpioModeOutputs o).getD [])) hreceived).trans ?_
    cases mode <;> rfl

/-- **A request is carried out**: besides what it prints, it does to the pins what it asks for, and
it queues its response. -/
theorem carried_out (b : Board) (s : Sketch) (r : Request) :
    ∃ s' outs, handleCommand b s r.cmd.toNat r.message.2 = some (s', outs) ∧
      outs.filterMap Output.action = r.effects ∧ s.Queues (r.response b) s' := by
  obtain ⟨s', hhandle, hqueues⟩ := handleCommand_eq b s r.cmd_ne r.message.2
  have hmessage : (r.cmd, r.message.2) = r.message := rfl
  rw [hmessage] at hhandle hqueues
  rw [answer_message] at hqueues
  exact ⟨s', _, hhandle, r.actions_message b, hqueues⟩

end Request

end Firmware

end HtcwFrameArq
