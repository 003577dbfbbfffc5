import ImportAudit.Proofs.Analysis.File
import ImportAudit.Proofs.Text.WellFormed

/-!
# Sources and the bytes of their files

The text of a source is the one that the file holds the bytes of, with nothing left out or replaced.
A file that holds the bytes of no text is dropped when it is read.
-/

namespace ImportAudit

variable {fs : FileSystem} {path root : Path} {encoding : Text.Encoding} {bs : List UInt8}

theorem readSource_of_read (h : fs.read path = .ok (.bytes bs)) :
    readSource fs encoding path = (Text.decode encoding bs).mapError .undecodable := by
  unfold readSource
  rw [h]

theorem readSource_eq_ok_iff (h : fs.read path = .ok (.bytes bs)) {source : String} :
    readSource fs encoding path = .ok source ↔ Text.encode? encoding source = some bs := by
  rw [readSource_of_read h, ← Text.decode_eq_ok_iff_encode?]
  exact mapError_eq_ok_iff

theorem readSource_cases (h : fs.read path = .ok (.bytes bs)) (encoding : Text.Encoding) :
    (∃ source, readSource fs encoding path = .ok source) ∨
      ∃ fault, readSource fs encoding path = .error (.undecodable fault) := by
  rw [readSource_of_read h]
  cases Text.decode encoding bs with
  | ok source => exact .inl ⟨source, rfl⟩
  | error fault => exact .inr ⟨fault, rfl⟩

theorem readSource_undecodable_iff (h : fs.read path = .ok (.bytes bs)) :
    (∃ fault, readSource fs .utf8 path = .error (.undecodable fault)) ↔ ¬ Text.WellFormed bs := by
  rw [Text.wellFormed_iff_exists_text]
  constructor
  · rintro ⟨fault, hfault⟩ ⟨source, rfl⟩
    rw [(readSource_eq_ok_iff h).mpr rfl] at hfault
    cases hfault
  · intro hnone
    refine (readSource_cases h .utf8).resolve_left ?_
    rintro ⟨source, hsource⟩
    have hbytes := (readSource_eq_ok_iff h).mp hsource
    exact hnone ⟨source, (Option.some.inj hbytes).symm⟩

theorem analyzeFile_of_undecodable {fault : Text.DecodeFault}
    (h : readSource fs .utf8 path = .error (.undecodable fault)) (root : Path) :
    analyzeFile fs path root = .ok ⟨path, .error (.ofFailure .read path (.undecodable fault))⟩ := by
  unfold analyzeFile
  rw [h]
  rfl

/-- A file is read to the text that it has the bytes of, whatever the encoding, or it cannot be
decoded; a text is read from its bytes. The parser is handed the bytes of the file. In UTF-8 exactly
the files whose bytes are not well-formed cannot be decoded, among them those in which a longer
form, a surrogate, a number beyond the last character or a character that breaks off follows
well-formed bytes, and such a file is dropped with a record of reading it. -/
theorem source_has_bytes_of_file (fs : FileSystem) (path root : Path) (bs : List UInt8)
    (hread : fs.read path = .ok (.bytes bs)) :
    (∀ encoding,
      (∃ source, readSource fs encoding path = .ok source ∧
        Text.encode? encoding source = some bs) ∨
      ∃ fault, readSource fs encoding path = .error (.undecodable fault)) ∧
    (∀ encoding source, Text.encode? encoding source = some bs →
      readSource fs encoding path = .ok source) ∧
    (∀ source file, readSource fs .utf8 path = .ok source →
      parseSource file source = parseBytes file bs) ∧
    ((∃ fault, readSource fs .utf8 path = .error (.undecodable fault)) ↔ ¬ Text.WellFormed bs) ∧
    (∀ before wrong after, bs = before ++ (wrong ++ after) → Text.WellFormed before →
      Text.IsMalformed after wrong →
      ¬ Text.WellFormed bs) ∧
    (¬ Text.WellFormed bs →
      ∃ fault,
        analyzeFile fs path root =
          .ok ⟨path, .error (.ofFailure .read path (.undecodable fault))⟩) := by
  refine ⟨fun encoding => ?_, fun encoding source => (readSource_eq_ok_iff hread).mpr, ?_,
    readSource_undecodable_iff hread, ?_, ?_⟩
  · refine (readSource_cases hread encoding).imp_left ?_
    rintro ⟨source, hsource⟩
    exact ⟨source, hsource, (readSource_eq_ok_iff hread).mp hsource⟩
  · intro source file hsource
    have hbytes : some (Text.encodeUtf8 source) = some bs := (readSource_eq_ok_iff hread).mp hsource
    exact congrArg (parseBytes file) (Option.some.inj hbytes)
  · rintro before wrong after rfl hbefore hwrong
    exact hbefore.not_append_malformed hwrong
  · intro hill
    obtain ⟨fault, hfault⟩ := (readSource_undecodable_iff hread).mpr hill
    exact ⟨fault, analyzeFile_of_undecodable hfault root⟩

/-- A surrogate after a byte order mark and a line end: the file is a text in Latin-1, of as many
characters as it has bytes, and is dropped in UTF-8. -/
theorem source_has_bytes_of_surrogate :
    let bs : List UInt8 := [0xef, 0xbb, 0xbf, 0x0d, 0x0a, 0xed, 0xa0, 0x80]
    let fs : FileSystem := { entries := [(["A.java"], .file (.bytes bs))] }
    let path : Path := { root := "/", parts := ["A.java"] }
    fs.read path = .ok (.bytes bs) ∧
      readSource fs .latin1 path =
        .ok (String.ofList (bs.map fun (b : UInt8) => Char.ofNat b.toNat)) ∧
      ¬ Text.WellFormed bs ∧
      ∃ fault,
        analyzeFile fs path path =
          .ok ⟨path, .error (.ofFailure .read path (.undecodable fault))⟩ := by
  intro bs fs path
  have hread : fs.read path = .ok (.bytes bs) := by decide +kernel
  have hbefore : Text.WellFormed (Text.encodeUtf8 "\ufeff\r\n") := Text.wellFormed_encoded _
  obtain ⟨-, hreturns, -, -, hmalformed, hdropped⟩ := source_has_bytes_of_file fs path path bs hread
  have hill : ¬ Text.WellFormed bs :=
    hmalformed (Text.encodeUtf8 "\ufeff\r\n") (Text.patternBytes 3 0xd800) [] (by decide) hbefore
      (.surrogate (by decide))
  exact ⟨hread, hreturns .latin1 _ (by decide), hill, hdropped hill⟩

end ImportAudit
