import Mathlib
import Scriptlet.Proofs.Action
import Scriptlet.Proofs.Grammar.Image
import Scriptlet.Proofs.Node.Decode
import Scriptlet.Proofs.Script.Rendering
import Scriptlet.Console.Process

/-! What is written to a file as the tree of a program, and that nothing of the program is lost in it. -/
namespace Scriptlet.Console

open Scriptlet.Action Node

variable {limits : Limits} {source path : String} {program : List Node} {json : Json} {shell after : Shell}

namespace Work

theorem save_eq_true {content : ByteArray} (saved : save path content shell = .ok true after) :
    OnDisk.write path content shell.disk = .ok () after.disk := by
  obtain ⟨outcome, between, wrote, ended⟩ := bind_eq_ok.mp saved
  cases outcome with
  | error error =>
    obtain ⟨_, _, _, ended⟩ := bind_eq_ok.mp ended
    obtain ⟨_, _, _, ended⟩ := bind_eq_ok.mp ended
    cases ended
  | ok =>
    cases ended
    unfold onDisk at wrote
    cases done : OnDisk.write path content shell.disk with
    | ok _ disk =>
      rw [done] at wrote
      cases wrote
      rfl
    | error error disk =>
      rw [done] at wrote
      cases wrote

theorem rendered_eq_ok {renderer : List Node → Except RenderError α}
    (done : rendered limits renderer program shell = .ok result after) :
    renderer program = .ok result ∧ shell = after := by
  unfold rendered at done
  cases outcome : Script.render limits renderer program with
  | ok value =>
    rw [outcome] at done
    cases done
    exact ⟨Script.render_eq_ok outcome, rfl⟩
  | error error =>
    rw [outcome] at done
    cases error with
    | render error => cases error <;> cases done
    | _ => cases done

/-- The last that a dump which goes well does to the disk is to write the JSON text to the file. -/
theorem dump_writes_text (encoded : programToJson program = .ok json)
    (dumped : dump limits path program shell = .ok true after) :
    ∃ before, OnDisk.write path json.text.toUTF8 before = .ok () after.disk := by
  obtain ⟨emptied, atEmptied, -, dumped⟩ := bind_eq_ok.mp dumped
  cases emptied with
  | false => cases dumped
  | true =>
    obtain ⟨written, atWritten, shown, dumped⟩ := bind_eq_ok.mp dumped
    obtain ⟨same, rfl⟩ := rendered_eq_ok shown
    obtain rfl := Except.ok.inj (same.symm.trans encoded)
    obtain ⟨saved, atSaved, wrote, dumped⟩ := bind_eq_ok.mp dumped
    cases saved with
    | false => cases dumped
    | true =>
      cases dumped
      have stored := save_eq_true wrote
      exact ⟨_, stored⟩

end Work

/-- The JSON value of a program decodes as the program, lines included, and the text that is written to a file
is read as that value. So the text determines the program. -/
theorem dumped_text_determines (parsed : Script.parse limits source = .ok program) :
    ∃ json, programToJson program = .ok json ∧ programOfJson? json = some program ∧
      Json.read? json.text = some json ∧
      (∀ {dumpLimits path shell after}, Work.dump dumpLimits path program shell = .ok true after →
        ∃ before, OnDisk.write path json.text.toUTF8 before = .ok () after.disk) ∧
      ∀ {otherLimits otherSource other otherJson}, Script.parse otherLimits otherSource = .ok other →
        programToJson other = .ok otherJson → otherJson.text = json.text → other = program := by
  have wellFormed := Grammar.parse_wellFormed parsed
  obtain ⟨json, encoded⟩ := wellFormed.json_ok
  refine ⟨json, encoded, programToJson_decoded encoded, Json.read?_text (wellFormed.json_readable encoded),
    fun dumped => Work.dump_writes_text encoded dumped, fun otherParsed otherEncoded same => ?_⟩
  exact text_injective wellFormed (Grammar.parse_wellFormed otherParsed) encoded otherEncoded same

/-- A declaration without a value and one with the value null have different texts. -/
theorem dumped_text_determines_absent :
    Script.parse ⟨48, 9⟩ "var a;" = .ok [.varDecl 1 "a" .absent] ∧
      Script.parse ⟨48, 9⟩ "var a = null;" = .ok [.varDecl 1 "a" (.literal 1 .null)] ∧
      ∃ json otherJson, programToJson [.varDecl 1 "a" .absent] = .ok json ∧
        programToJson [.varDecl 1 "a" (.literal 1 .null)] = .ok otherJson ∧
        Json.read? json.text = some json ∧ otherJson.text ≠ json.text := by
  have parsed : Script.parse ⟨48, 9⟩ "var a;" = .ok [.varDecl 1 "a" .absent] := by
    cbv
  have otherParsed : Script.parse ⟨48, 9⟩ "var a = null;" = .ok [.varDecl 1 "a" (.literal 1 .null)] := by
    clear parsed
    cbv
  obtain ⟨json, encoded, -, read, -, determines⟩ := dumped_text_determines parsed
  refine ⟨parsed, otherParsed, json, _, encoded, rfl, read, fun same => ?_⟩
  cases determines otherParsed rfl same

end Scriptlet.Console
