import DebugSymbols.Command.Outcome
import DebugSymbols.Proofs.Build
import DebugSymbols.Proofs.Bytes.Reading
import DebugSymbols.Proofs.Text.JsonReading

namespace DebugSymbols

namespace Report

theorem number_eq_ok {typed : String} {n : UInt32} :
    number typed = .ok n ↔ (Numeral.parse typed).2 = .ok n := by
  rw [number]
  rcases Numeral.parse typed with ⟨_ | _, _ | _⟩ <;> simp

end Report

theorem Failure.code_ne_zero (failure : Failure) : failure.code ≠ 0 := by
  rw [code]
  split <;> decide

namespace Outcome

def ofDocument (d : JsonValue) : Outcome := { code := 0, stdout := ofLines [d.text] }

def ofFailure (failure : Failure) : Outcome := { code := failure.code, stderr := failure.text }

theorem read?_ofDocument (d : JsonValue) : JsonValue.read? (ofDocument d).stdout = some d := by
  rw [ofDocument, ofLines, List.map_singleton, String.join_cons, String.join_nil,
    String.append_empty, JsonValue.read?_line]

variable [Build] {c : Command} {path : String} {json : Bool} {contents : Except Error Bytes}
  {f : SymbolFile} {report : Report} {failure : Failure}

theorem ofInvocation_of_report (hf : contents.bind SymbolFile.open? = .ok f)
    (hreport : Report.ofCommand f c = .ok report) :
    ofInvocation ⟨c, path, true⟩ contents = ofDocument report.document := by
  rw [ofInvocation, hf]
  simp only [Except.mapError, Except.bind, hreport, if_true]
  rfl

theorem ofInvocation_of_failure (hf : contents.bind SymbolFile.open? = .ok f)
    (hfailure : Report.ofCommand f c = .error failure) :
    ofInvocation ⟨c, path, json⟩ contents = ofFailure failure := by
  rw [ofInvocation, hf]
  simp only [Except.mapError, Except.bind, hfailure]
  rfl

theorem exists_report_of_code (h : (ofInvocation ⟨c, path, json⟩ contents).code = 0) :
    ∃ f report, contents.bind SymbolFile.open? = .ok f ∧ Report.ofCommand f c = .ok report := by
  cases hf : contents.bind SymbolFile.open? with
  | error e =>
    rw [ofInvocation, hf] at h
    exact absurd h (by decide : (1 : UInt32) ≠ 0)
  | ok f =>
    cases hreport : Report.ofCommand f c with
    | error failure =>
      rw [ofInvocation_of_failure hf hreport] at h
      exact absurd h failure.code_ne_zero
    | ok report => exact ⟨f, report, rfl, hreport⟩

end Outcome

def oneMethodFile (program : List UInt8) : Bytes :=
  let header : Header := {
    sourceCount := 1, sourceTableOffset := 126, methodCount := 1, methodTableOffset := 134
    lineBase := -1, lineRange := 8, opcodeBase := 9 }
  (Preamble.encode { guid := .zero } ++ header.encode ++ [1, 97, 0, 0] ++ [0, 0, 0] ++
    [1, 116, 0, 117, 118, 0, 0] ++ littleEndian 4 1 ++ littleEndian 4 112 ++
    littleEndian 4 7 ++ littleEndian 4 119 ++ littleEndian 4 146 ++ program).toArray

end DebugSymbols
