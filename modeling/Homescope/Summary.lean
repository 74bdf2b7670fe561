import Homescope.Activity
import Homescope.ApiTypes

/-! The summary of a device (`api/src/devices/summary.rs`). -/

namespace Homescope

def DeviceKeyStatus.ofKeyFault : KeyFault → DeviceKeyStatus
  | .missing => missing
  | .invalid _ => invalid
  | .kekUnavailable _ => kekUnavailable
  | .unopenable _ => unopenable

def classify (kekAead : Aead) (activity : DeviceActivity) (kekRing : KekRing) : DeviceSummary :=
  let { record, lastSeen } := activity
  let keyStatus := match openKeyColumn kekAead record.key record.deviceAddr kekRing with
    | .ok _ => .ok
    | .error err => .ofKeyFault err
  { deviceAddr := record.deviceAddr, name := record.name, keyStatus,
    keyValidFrom := record.keyValidFrom, lastSeen }

/-- A row is readable exactly when its key column opens. -/
theorem classify_ok_iff (kekAead : Aead) (activity : DeviceActivity) (kekRing : KekRing) :
    (classify kekAead activity kekRing).keyStatus = .ok ↔
      ∃ key, openKeyColumn kekAead activity.record.key activity.record.deviceAddr kekRing =
        .ok key := by
  simp only [classify]
  split
  · rename_i key hkey
    exact ⟨fun _ => ⟨key, hkey⟩, fun _ => rfl⟩
  · rename_i err herr
    refine ⟨fun h => ?_, fun ⟨key, hkey⟩ => ?_⟩
    · cases err <;> cases h
    · cases herr.symm.trans hkey

end Homescope
