import ChangeGate.Proofs.CommandLine.Reader
import ChangeGate.Proofs.Program.Detect
import ChangeGate.Proofs.PullRequest.Requests

/-! # The verdict of a run

A run that forgives failures leaves one line in the output file, as far as the disk lets it
(**`run_detect_output`**): the line with the verdict, and if the disk stops it, what then can be written of
the line that says `false` behind the beginning that is there. It ends well, unless the pages of the listing
outnumber their counter (`detect_of_outgrows`). -/

namespace ChangeGate

open CommandLine (Invocation DetectOptions)
open PullRequest (Client Runner)

namespace Program

variable (w : Machine) (i : Invocation) (o : DetectOptions) (key : Text)

/-! ## (1) What is left in the output file -/

section Left

variable {w o key} {file : Text} {place : Path}

/-- The place in which the output can be given stays the same when something was written there. -/
theorem canGive_afterWriting (h : w.CanGive o key file place) (pieces : List Text.Bytes) :
    (w.afterWriting place pieces).CanGive o key file place :=
  ⟨h.1, h.2.1, Files.Tree.opened_addTo h.2.2 _⟩

/-- What is given behind something that was written stands behind it in the file. -/
theorem tree_of_gives (h : w.CanGive o key file place) {pieces : List Text.Bytes} {value : Bool}
    {t : Files.Tree} (ht : (w.afterWriting place pieces).Gives o key value t) :
    t = w.tree.addTo place ((w.written place pieces).bytes ++
      ((w.afterWriting place pieces).written place (Action.outputParts key value)).bytes) := by
  rw [← Files.Tree.addTo_addTo (Files.Tree.find_of_opened h.2.2).2]
  exact ht.line file place (canGive_afterWriting h pieces)

/-- As much of the line as the disk lets through is a beginning of the line. -/
theorem isPrefix_written (value : Bool) :
    (w.written place (Action.outputParts key value)).bytes <+:
      Text.encode (Action.outputLine key value) := by
  rw [← Action.flatten_outputParts]
  exact Files.Disk.writeAll_prefix w.writes _

/-- It is the whole line exactly if the disk does not stop it. -/
theorem written_eq_line_iff {value : Bool} :
    (w.written place (Action.outputParts key value)).bytes =
        Text.encode (Action.outputLine key value) ↔
      (w.written place (Action.outputParts key value)).fault = none := by
  rw [← Action.flatten_outputParts]
  exact Files.Disk.writeAll_eq_iff w.writes _

/-- The line that says `false`. -/
theorem outputLine_false (key : Text) : Action.outputLine key false = key ++ "=false\n".toList := by
  rw [Action.outputLine, List.append_assoc]
  rfl

end Left

/-- **A check that forgives failures** ends well unless it is outgrown. Where the output can be given, it
leaves as much of the line with the verdict as the disk lets through, and if that is not the whole line,
what then can be written of the line that says `false`; where it cannot be given, no file is touched. -/
theorem detect_apply [Glob.Engine] (hlenient : o.strict = false) (hfits : ¬ w.Outgrows i o) :
    ∃ key w', (detect i o : Session _) w = (.ok .success, w') ∧ (∀ k, w.UsesKey i o k ↔ k = key) ∧
      (∀ file place, w.CanGive o key file place → ∃ b second, (b = true ↔ w.Affirms i o) ∧
        w'.tree = w.tree.addTo place ((w.written place (Action.outputParts key b)).bytes ++ second) ∧
        second <+: Text.encode (Action.outputLine key false) ∧
        ((w.written place (Action.outputParts key b)).fault = none → second = [])) ∧
      ((∀ file place, ¬ w.CanGive o key file place) → w'.tree = w.tree) := by
  obtain ⟨key, hkey, output, errors, sent,
      ⟨file, place, b, hgive, hb, -, hattempt⟩ | ⟨f, hfails, hoverflow, hattempt⟩⟩ :=
    attempt_cases w i o
  · cases hfault : (w.written place (Action.outputParts key b)).fault with
    | none =>
      rw [hfault] at hattempt
      refine ⟨key, _, detect_of_ok hattempt, hkey, ?_, fun hnever => absurd hgive (hnever file place)⟩
      intro file' place' hgive'
      obtain ⟨rfl, rfl⟩ := hgive.unique hgive'
      exact ⟨b, [], hb, by rw [List.append_nil]; rfl, List.nil_prefix, fun _ => rfl⟩
    | some e =>
      rw [hfault] at hattempt
      refine ⟨key, _, detect_of_lenient hattempt rfl hlenient, hkey, ?_,
        fun hnever => absurd hgive (hnever file place)⟩
      obtain ⟨t, writes, rest, hgives, hforgive⟩ := forgive_apply
        { w.afterWriting place (Action.outputParts key b) with
          output := output, errors := errors, requests := w.requests ++ sent } o key
        (.file file e.message)
      rw [hforgive]
      intro file' place' hgive'
      obtain ⟨rfl, rfl⟩ := hgive.unique hgive'
      -- forgiving only looks at what the stopped line has left of the machine
      have hbehind : (w.afterWriting place (Action.outputParts key b)).Gives o key false t :=
        ⟨hgives.line, hgives.kept⟩
      exact ⟨b, _, hb, tree_of_gives hgive hbehind, isPrefix_written false,
        fun hnone => absurd (hnone.symm.trans hfault) (by simp)⟩
  · have hno : f.overflowed = false := by
      rw [← Bool.not_eq_true, hoverflow]
      exact hfits
    obtain ⟨t, writes, rest, hgives, hforgive⟩ := forgive_apply
      { w with output := output, errors := errors, requests := w.requests ++ sent } o key f
    refine ⟨key, _, detect_of_lenient hattempt hno hlenient, hkey, ?_, ?_⟩
    · intro file place hgive
      have hverdict : ¬ w.Affirms i o := hfails file place hgive
      refine ⟨false, [], by simpa using hverdict, ?_, List.nil_prefix, fun _ => rfl⟩
      rw [hforgive, List.append_nil]
      exact hgives.line file place hgive
    · rw [hforgive]
      exact fun hnever => hgives.kept hnever

/-! ## (2) Runs -/

/-- **A run that forgives failures ends well and gives its verdict once**, unless the pages of the listing
outnumber their counter: then the run is broken off, after a request for each number, and no file is touched.
If the key can be read back and the output file can be opened, a line is written to its end, whose value is
`true` exactly if the machine affirms the invocation; if the disk stops it, a beginning of it is left, and
behind that perhaps a beginning of the line that says `false`. The line is there alone and as a whole if
the file is writable. All other places are as before, and otherwise no file is touched. -/
theorem run_detect_output [Glob.Engine] {w : Machine} {arguments : List Text} {i : Invocation}
    {o : DetectOptions} (hread : CommandLine.read w.valueOf arguments = .ok i)
    (hcommand : i.command = some (.detect o)) (hlenient : o.strict = false) :
    ∃ status w', (run arguments : Session ExitStatus) w = (status, w') ∧
      (w.Outgrows i o → status = .overflow ∧ w'.tree = w.tree ∧
        ∃ config sent, w.Configured i.config config ∧
          w.Exchanges o config sent (.error (.request .overflow)) ∧ sent.length = 4294967295) ∧
      (¬ w.Outgrows i o → status.code = 0 ∧ ∃ key, (∀ k, w.UsesKey i o k ↔ k = key) ∧
        (∀ file place, o.outputFile = some file → Action.isKey key = true →
          w.tree.opened w.cwd file = .ok place →
          ∃ b line first second, (b = true ↔ w.Affirms i o) ∧
            line = Text.encode (key ++ '=' :: Text.ofBool b ++ ['\n']) ∧
            w'.tree = w.tree.addTo place (first ++ second) ∧
            w'.tree.read w.cwd file = .ok (w.tree.contentOf w.cwd file ++ (first ++ second)) ∧
            (∀ q, q ≠ place → w'.tree.node? q = w.tree.node? q) ∧
            first <+: line ∧ second <+: Text.encode (key ++ "=false\n".toList) ∧
            (first = line → second = []) ∧ (w.Writable file → first = line)) ∧
        ((∀ file, o.outputFile = some file → Action.isKey key = true → ¬ w.tree.Opens w.cwd file) →
          w'.tree = w.tree)) := by
  rw [run_detect_apply hread hcommand]
  by_cases houtgrows : w.Outgrows i o
  · obtain ⟨output, errors, sent, hdetect⟩ := detect_of_outgrows houtgrows
    rw [hdetect]
    refine ⟨.overflow, _, rfl, fun _ => ⟨rfl, rfl, ?_⟩, fun hfits => absurd houtgrows hfits⟩
    obtain ⟨config, -, hconfigured, -, -, asked, hexchange⟩ := houtgrows
    refine ⟨config, asked, hconfigured, hexchange, ?_⟩
    -- no number is left for a page, so each of them was asked for
    obtain ⟨p, client, -, -, hlists⟩ := hexchange
    have hpages := hlists.length_of_overflow (Nat.le_add_left 1 _)
    exact Nat.succ.inj hpages
  · obtain ⟨key, w', hdetect, hkey, hleft, hkept⟩ := detect_apply w i o hlenient houtgrows
    rw [hdetect]
    refine ⟨.success, w', rfl, fun h => absurd h houtgrows, fun _ => ⟨rfl, key, hkey, ?_, ?_⟩⟩
    · intro file place hfile hvalid hopened
      obtain ⟨b, second, hb, htree, hsecond, hwhole⟩ := hleft file place ⟨hfile, hvalid, hopened⟩
      refine ⟨b, _, _, second, hb, rfl, htree, ?_, ?_, isPrefix_written b, ?_, ?_, ?_⟩
      · rw [htree]
        exact Files.Tree.read_addTo hopened _
      · intro q hq
        rw [htree]
        exact Files.Tree.node?_addTo_of_ne hq _
      · rw [← outputLine_false]
        exact hsecond
      · exact fun hline => hwhole (written_eq_line_iff.mp hline)
      · intro hwritable
        exact written_eq_line_iff.mpr (hwritable.written hopened _).1
    · intro hnever
      refine hkept ?_
      rintro file place ⟨hfile, hvalid, hopened⟩
      exact hnever file hfile hvalid ⟨place, hopened⟩

/-! ## (3) A changed document -/

/-- A workflow that was triggered by a pull request with one file, the patterns being about it. The
output file holds a line already. -/
def documentWorkflow : Machine :=
  .start
    [("INPUT_FILE-PATTERNS".toList, "- '*.md'".toList), ("GITHUB_OUTPUT".toList, "/out".toList),
      ("GITHUB_EVENT_NAME".toList, "pull_request".toList),
      ("GITHUB_EVENT_PATH".toList, "/event".toList),
      ("GITHUB_REPOSITORY".toList, "o/r".toList), ("GITHUB_TOKEN".toList, "t".toList)]
    ⟨[(["out".toList], .file (Text.encode "a=b\n".toList) false),
      (["event".toList],
        .file (Text.encode "\x7b\"pull_request\":\x7b\"number\":7\x7d\x7d".toList) false)]⟩
    [] [] (.ofScript [⟨200, Text.encode "[\x7b\"filename\":\"a.md\"\x7d]".toList⟩])

/-- The options that the variables of that workflow stand for. -/
def documentOptions : DetectOptions :=
  ⟨some "- '*.md'".toList, some "/out".toList, none, none, false⟩

/-- The pull request of that workflow. -/
def documentPullRequest : PullRequest := ⟨"o".toList, "r".toList, 7, "t".toList⟩

/-- The client of the default settings. -/
def defaultClient : Client := ⟨"https://api.github.com".toList, 100, "pathgate".toList⟩

/-- The one request of that workflow. -/
def documentRequest : Http.Request :=
  ⟨"/repos/o/r/pulls/7/files?per_page=100&page=1".toList, "token t".toList,
    PullRequest.listFormat, "pathgate".toList⟩

/-- Its response is a page with one file. -/
theorem received_document {answer : Except Http.Breakdown Http.Response}
    (h : answer = .ok ⟨200, Text.encode "[\x7b\"filename\":\"a.md\"\x7d]".toList⟩) :
    Client.received answer =
      .ok (some [.object [("filename".toList, .string "a.md".toList)]]) := by
  rw [h]
  have hlist : Json.readDocument "[\x7b\"filename\":\"a.md\"\x7d]".toList =
      .ok (.list [.object [("filename".toList, .string "a.md".toList)]]) := by cbv
  refine Client.pageOf_of_list rfl ?_
  rw [show Http.Response.text _ = "[\x7b\"filename\":\"a.md\"\x7d]".toList by decide]
  exact hlist

/-- The pull request changed a document, so one line more says that something changed. -/
theorem run_detect_output_document :
    CommandLine.read documentWorkflow.valueOf ["detect".toList] =
      .ok ⟨none, .text, some (.detect documentOptions)⟩ ∧ documentOptions.strict = false ∧
    ∃ status w', (run ["detect".toList] : Session ExitStatus) documentWorkflow = (status, w') ∧
      status.code = 0 ∧
      w'.tree.read [] "/out".toList = .ok (Text.encode "a=b\nchanged=true\n".toList) := by
  have hread : CommandLine.read documentWorkflow.valueOf ["detect".toList] =
      .ok ⟨none, .text, some (.detect documentOptions)⟩ := rfl
  -- there is no configuration file, and the key is the default one
  have hconfigured : documentWorkflow.Configured none .default := rfl
  have hkey : documentWorkflow.UsesKey ⟨none, .text, some (.detect documentOptions)⟩ documentOptions
      Config.default.key := .configured rfl hconfigured
  have hresolves : (Runner.ofVariables documentWorkflow.valueOf).Resolves documentWorkflow
      documentPullRequest :=
    ⟨by decide, "/event".toList, _, 7, by decide, by decide, rfl, rfl, by decide⟩
  have hlists : defaultClient.Lists documentPullRequest documentWorkflow.server [] 1
      [documentRequest] (.ok ["a.md".toList]) := by
    have hrequest : defaultClient.request documentPullRequest 1 = .ok documentRequest := by
      decide +kernel
    exact Client.Lists.last (by decide) hrequest (received_document rfl) (by decide)
  have hexchange : documentWorkflow.Exchanges documentOptions .default [documentRequest]
      (.ok ["a.md".toList]) := ⟨_, _, hresolves, rfl, hlists⟩
  have haffirms : documentWorkflow.Affirms ⟨none, .text, some (.detect documentOptions)⟩
      documentOptions :=
    ⟨.default, hconfigured, "- '*.md'".toList, _, ["a.md".toList], rfl, by decide, rfl,
      ⟨_, hexchange⟩, "a.md".toList, by simp, by decide⟩
  have hfits : ¬ documentWorkflow.Outgrows ⟨none, .text, some (.detect documentOptions)⟩
      documentOptions := by
    rintro ⟨config, -, hconfigured', -, -, sent, hoverflow⟩
    obtain rfl : config = .default := hconfigured'
    exact absurd (hexchange.unique hoverflow).2 (by simp)
  have hopened : documentWorkflow.tree.opened [] "/out".toList = .ok ["out".toList] := by
    decide +kernel
  obtain ⟨status, w', hrun, -, hends⟩ := run_detect_output hread rfl rfl
  obtain ⟨hstatus, key, hkeys, hgiven, -⟩ := hends hfits
  obtain rfl := (hkeys _).mp hkey
  obtain ⟨b, line, first, second, hb, rfl, -, hcontent, -, -, -, hwhole, hwritable⟩ :=
    hgiven _ _ rfl (by decide) hopened
  obtain rfl : b = true := hb.mpr haffirms
  have hfirst := hwritable ⟨_, hopened, fun _ _ => rfl⟩
  rw [hwhole hfirst, hfirst] at hcontent
  exact ⟨hread, rfl, status, w', hrun, hstatus, hcontent⟩

/-- That workflow with the device that is always full as its output file. -/
def fullWorkflow : Machine :=
  { documentWorkflow with
    environment := ("GITHUB_OUTPUT".toList, "/dev/full".toList) :: documentWorkflow.environment }

/-- The pages of a listing without an end, of one entry each. -/
def endlessServer : Http.Server :=
  fun _ _ => .ok ⟨200, Text.encode "[\x7b\"filename\":\"a.md\"\x7d]".toList⟩

/-- That workflow with pages of one file, and a listing without an end. -/
def endlessWorkflow : Machine :=
  { documentWorkflow with
    tree := documentWorkflow.tree.insert ["pathgate.toml".toList]
      (.file (Text.encode "version = 1\n[github]\nper_page = 1\n".toList) false)
    server := endlessServer }

/-- The settings of that workflow. -/
def endlessConfig : Config := ⟨1, ⟨none, 1, "pathgate".toList, 30⟩, "changed".toList⟩

/-- The pages of that listing outnumber their counter. -/
theorem outgrows_endless : endlessWorkflow.Outgrows ⟨none, .text, some (.detect documentOptions)⟩
    documentOptions := by
  have hconfigured : endlessWorkflow.Configured none endlessConfig := by
    have hpath : endlessWorkflow.configPath none = some "/pathgate.toml".toList := by decide +kernel
    unfold Machine.Configured
    rw [hpath]
    exact ⟨"version = 1\n[github]\nper_page = 1\n".toList, by decide +kernel, by decide +kernel⟩
  have hresolves : (Runner.ofVariables endlessWorkflow.valueOf).Resolves endlessWorkflow
      documentPullRequest :=
    ⟨by decide, "/event".toList, _, 7, by decide, by decide +kernel, rfl, rfl, by decide⟩
  refine ⟨endlessConfig, endlessConfig.key, hconfigured, .configured rfl hconfigured,
    ⟨_, _, _, rfl, rfl⟩, ?_⟩
  obtain ⟨-, sent, outcome, hlists, -⟩ := Client.files_apply
    ⟨"https://api.github.com".toList, 1, "pathgate".toList⟩ documentPullRequest endlessWorkflow
  refine ⟨sent, _, _, hresolves, rfl, ?_⟩
  rw [← hlists.overflow_of_full ?_ ?_]
  · exact hlists
  · intro page
    exact ⟨_, Client.request_of_web rfl (.inr rfl) (by decide) page⟩
  · intro past r
    exact ⟨_, received_document rfl, by decide⟩

/-- A run with that listing is broken off. -/
theorem run_endless :
    ((run ["detect".toList] : Session ExitStatus) endlessWorkflow).1 = .overflow := by
  have hread : CommandLine.read endlessWorkflow.valueOf ["detect".toList] =
      .ok ⟨none, .text, some (.detect documentOptions)⟩ := rfl
  obtain ⟨output, errors, sent, hdetect⟩ := detect_of_outgrows outgrows_endless
  rw [run_detect_apply hread rfl, hdetect]
  rfl

/-- **A line is not always left, and not every run ends well.** The device that is always full is opened, and
the key can be read back, but nothing is written; and a run whose listing has no end is broken off. -/
theorem run_detect_output_stopped :
    (∃ o, CommandLine.read fullWorkflow.valueOf ["detect".toList] =
        .ok ⟨none, .text, some (.detect o)⟩ ∧ o.strict = false ∧
        o.outputFile = some "/dev/full".toList ∧ o.outputKey = none) ∧
    fullWorkflow.Configured none .default ∧ Action.isKey Config.default.key = true ∧
    fullWorkflow.tree.Opens [] "/dev/full".toList ∧
    ((run ["detect".toList] : Session ExitStatus) fullWorkflow).2.tree.read [] "/dev/full".toList =
      .ok (fullWorkflow.tree.contentOf [] "/dev/full".toList) ∧
    CommandLine.read endlessWorkflow.valueOf ["detect".toList] =
      .ok ⟨none, .text, some (.detect documentOptions)⟩ ∧ documentOptions.strict = false ∧
    ((run ["detect".toList] : Session ExitStatus) endlessWorkflow).1.code = 101 := by
  refine ⟨⟨_, rfl, rfl, rfl, rfl⟩, rfl, by decide, ⟨["dev".toList, "full".toList], by decide +kernel⟩,
    by decide +kernel, rfl, rfl, ?_⟩
  rw [run_endless]
  rfl

end Program

end ChangeGate
