import WorkerGuard.Proofs.Project.Path

/-!
# WorkerGuard.Proofs.Project.Files

What the processes of a project find in its files, one after the other.

* `Files.Adds`: what is new lies at places where there was nothing.
* `Files.Opened`: a database that can be opened, with nothing to be made on the way.
* `Files.opened_of_open`, `Files.barred_of_open`: what is left of an attempt to open one.
* `Files.adds_putLog`: a log that is put back as it was is the one that was there.
* `Project.Finds`: the settings and the database that a process finds. Those that it leaves are
  found by the next one (`Project.finds_putBack`).
* `Project.Barred`: there is no way to the database, and no process makes one
  (`Project.Barred.opens`).
-/

namespace WorkerGuard

open Registry

namespace Files

variable {fs fs' fs'' : Files} {path : String} {places : List String} {db : Database}

/-- All that was there is there, and all that is new lies at some of these places. -/
def Adds (places : List String) (fs fs' : Files) : Prop :=
  ∀ k, fs'.entries.find? k = fs.entries.find? k ∨ k ∈ places ∧ fs.entries.find? k = none

theorem Adds.refl (places : List String) (fs : Files) : fs.Adds places fs := fun _ => .inl rfl

theorem Adds.keeps (h : fs.Adds places fs') {k : String} {f : File}
    (hk : fs.entries.find? k = some f) : fs'.entries.find? k = some f := by
  obtain h | ⟨_, hnone⟩ := h k
  · rw [h, hk]
  · rw [hk] at hnone
    cases hnone

theorem Adds.trans {more : List String} (h : fs.Adds places fs') (h' : fs'.Adds more fs'') :
    fs.Adds (places ++ more) fs'' := by
  intro k
  obtain heq | ⟨hk, hnone⟩ := h k
  · obtain heq' | ⟨hk, hnone⟩ := h' k
    · exact .inl (heq'.trans heq)
    · exact .inr ⟨List.mem_append_right _ hk, heq.symm.trans hnone⟩
  · exact .inr ⟨List.mem_append_left _ hk, hnone⟩

theorem Adds.mono {more : List String} (h : fs.Adds places fs') (hle : places ⊆ more) :
    fs.Adds more fs' :=
  fun k => (h k).imp_right fun hk => ⟨hle hk.1, hk.2⟩

theorem adds_put (h : fs.entries.find? (Path.place path) = none) (f : File) :
    fs.Adds [Path.place path] (fs.put path f) := by
  intro k
  by_cases hk : k = Path.place path
  · exact .inr ⟨List.mem_singleton.2 hk, hk ▸ h⟩
  · exact .inl (by simp [put, hk])

section MakeAll

theorem makeAll_of_folders (h : ∀ p ∈ places, fs.entries.find? p = some .folder) :
    makeAll places fs = .ok fs := by
  induction places with
  | nil => rfl
  | cons p ps ih =>
    rw [makeAll, h p (by simp)]
    exact ih fun q hq => h q (by simp [hq])

/-- Nothing but folders is made, and they are there afterwards. -/
theorem folders_of_makeAll (h : makeAll places fs = .ok fs') :
    fs.Adds places fs' ∧ (∀ p ∈ places, fs'.entries.find? p = some .folder) ∧
      ∀ k, fs'.entries.find? k = fs.entries.find? k ∨ fs'.entries.find? k = some .folder := by
  induction places generalizing fs with
  | nil =>
    cases h
    exact ⟨.refl _ _, by simp, fun _ => .inl rfl⟩
  | cons p ps ih =>
    rw [makeAll] at h
    split at h
    · rename_i hnone
      obtain ⟨hadds, hfolders, hnew⟩ := ih h
      have hp : fs'.entries.find? p = some .folder := hadds.keeps (by simp)
      refine ⟨fun k => ?_, List.forall_mem_cons.2 ⟨hp, hfolders⟩, fun k => ?_⟩
      · by_cases hk : k = p
        · exact .inr ⟨by simp [hk], hk ▸ hnone⟩
        · obtain heq | ⟨hmem, hno⟩ := hadds k
          · exact .inl (by simpa [hk] using heq)
          · exact .inr ⟨by simp [hmem], by simpa [hk] using hno⟩
      · by_cases hk : k = p
        · exact .inr (hk ▸ hp)
        · exact (hnew k).imp_left fun heq => by simpa [hk] using heq
    · rename_i hold
      obtain ⟨hadds, hfolders, hnew⟩ := ih h
      exact ⟨hadds.mono (List.subset_cons_self ..),
        List.forall_mem_cons.2 ⟨hadds.keeps hold, hfolders⟩, hnew⟩
    · cases h
    · cases h

end MakeAll

/-- The database at a path, when all the folders on the way are there. -/
structure Opened (path : String) (db : Database) (fs : Files) : Prop where
  folders : ∀ p ∈ Path.ancestors path, fs.entries.find? p = some .folder
  file : Path.isFolder path = false
  found : fs.entries.find? (Path.place path) = some (.database db)

theorem find?_of_isFolder (h : Path.isFolder path = false) (fs : Files) :
    fs.find? path = fs.entries.find? (Path.place path) := by
  have hway : (Path.way path).isEmpty = false := (Bool.or_eq_false_iff.1 h).2
  rw [find?, hway]
  rfl

theorem Opened.find? (h : fs.Opened path db) : fs.find? path = some (.database db) := by
  rw [find?_of_isFolder h.file, h.found]

theorem Opened.openDatabase (h : fs.Opened path db) : fs.openDatabase path = (.ok db, fs) := by
  rw [Files.openDatabase, makeFolders, makeAll_of_folders h.folders]
  simp [h.file, h.find?]

theorem Opened.adds (h : fs.Opened path db) (ha : fs.Adds places fs') : fs'.Opened path db :=
  ⟨fun p hp => ha.keeps (h.folders p hp), h.file, ha.keeps h.found⟩

/-- The folders on the way are no databases. -/
theorem Opened.put (h : fs.Opened path db) (db' : Database) :
    (fs.put path (.database db')).Opened path db' := by
  refine ⟨fun p hp => ?_, h.file, by simp [Files.put]⟩
  have hne : p ≠ Path.place path := by
    rintro rfl
    have hfolder := h.folders _ hp
    rw [h.found] at hfolder
    cases hfolder
  simpa [Files.put, hne] using h.folders p hp

theorem opened_of_open (h : fs.openDatabase path = (.ok db, fs')) :
    fs'.Opened path db ∧ fs.Adds (Path.ancestors path ++ [Path.place path]) fs' ∧
      (fs.find? path = none → db = .empty) := by
  rw [openDatabase] at h
  split at h
  · cases h
  · rename_i fs₁ hmade
    obtain ⟨hadds, hfolders, hnew⟩ := folders_of_makeAll hmade
    split at h
    · cases h
    · rename_i hfile
      replace hfile := Bool.not_eq_true _ ▸ hfile
      split at h
      · rename_i hnone
        cases h
        rw [find?_of_isFolder hfile] at hnone
        have hput := adds_put hnone (.database .empty)
        exact ⟨⟨fun p hp => hput.keeps (hfolders p hp), hfile, by simp [put]⟩, hadds.trans hput,
          fun _ => rfl⟩
      · rename_i hfound
        cases h
        rw [find?_of_isFolder hfile] at hfound
        refine ⟨⟨hfolders, hfile, hfound⟩, hadds.mono (List.subset_append_left ..), ?_⟩
        intro hnone
        rw [find?_of_isFolder hfile] at hnone
        obtain heq | hfolder := hnew (Path.place path)
        · rw [hfound, hnone] at heq
          cases heq
        · rw [hfound] at hfolder
          cases hfolder
      · cases h
      · cases h

/-- What stood in the way still does. -/
theorem barred_of_open {e : Error} (h : fs.openDatabase path = (.error e, fs')) :
    fs.Adds (Path.ancestors path) fs' ∧ (∃ e, (fs'.openDatabase path).1 = .error e) ∧
      ∀ db, fs'.find? path = some (.database db) → fs.find? path = some (.database db) := by
  rw [openDatabase] at h
  split at h
  · rename_i hfailed
    cases h
    refine ⟨.refl _ _, ⟨_, by rw [openDatabase, hfailed]⟩, fun _ => id⟩
  · rename_i fs₁ hmade
    obtain ⟨hadds, hfolders, hnew⟩ := folders_of_makeAll hmade
    have hagain : fs₁.makeFolders path = .ok fs₁ := makeAll_of_folders hfolders
    have hfound : ∀ db, fs₁.find? path = some (.database db) →
        fs.find? path = some (.database db) := by
      intro db hdb
      unfold find? at hdb ⊢
      split at hdb
      · cases hdb
      · rename_i hway
        rw [if_neg hway]
        obtain heq | hfolder := hnew (Path.place path)
        · exact heq.symm.trans hdb
        · rw [hfolder] at hdb
          cases hdb
    split at h
    · rename_i hfolder
      cases h
      exact ⟨hadds, ⟨_, by rw [openDatabase, hagain]; simp only [hfolder, if_true]; rfl⟩, hfound⟩
    · rename_i hfile
      split at h
      · cases h
      · cases h
      · rename_i hother
        cases h
        exact ⟨hadds, ⟨_, by rw [openDatabase, hagain]; simp only [hfile, hother]; rfl⟩, hfound⟩
      · rename_i hother
        cases h
        exact ⟨hadds, ⟨_, by rw [openDatabase, hagain]; simp only [hfile, hother]; rfl⟩, hfound⟩

/-- The bytes that follow come behind those that have been read. -/
theorem toList_loop (bytes : ByteArray) (i : Nat) (read : List UInt8) :
    ByteArray.toList.loop bytes i read = read.reverse ++ bytes.data.toList.drop i := by
  fun_induction ByteArray.toList.loop bytes i read with
  | case1 i read hi ih =>
    have hlt : i < bytes.data.toList.length := hi
    have hget : bytes.get! i = bytes.data.toList[i] := getElem!_pos bytes.data i hlt
    rw [ih, List.drop_eq_getElem_cons hlt, List.reverse_cons, List.append_assoc, hget]
    rfl
  | case2 i read hi =>
    have hle : bytes.data.toList.length ≤ i := Nat.not_lt.1 hi
    rw [List.drop_eq_nil_of_le hle, List.append_nil]

theorem toList_eq (bytes : ByteArray) : bytes.toList = bytes.data.toList := toList_loop bytes 0 []

/-- A log that is a text is written back as it was. -/
theorem toUTF8_of_ofBytes {bytes : ByteArray} {cs : List Char}
    (h : Log.ofBytes bytes.toList = .text cs) : (String.ofList cs).toUTF8 = bytes := by
  unfold Log.ofBytes at h
  rw [toList_eq] at h
  split at h
  · rename_i s hs
    cases h
    rw [String.ofList_toList]
    unfold String.fromUTF8? at hs
    split at hs
    · cases hs
      rfl
    · cases hs
  · cases h

/-- Whatever it is, all that can be new are folders on the way to it. -/
theorem adds_putLog (fs : Files) (path : String) :
    fs.Adds (Path.ancestors path) (fs.putLog path (fs.log path)) := by
  cases hlog : fs.log path with
  | text cs =>
    rw [log] at hlog
    split at hlog
    · cases hlog
    · rename_i bytes hfound
      have hbytes := toUTF8_of_ofBytes hlog
      simp only [putLog, write, hfound, hbytes]
      rw [makeFolders]
      cases hmade : makeAll (Path.ancestors path) fs with
      | error e => exact .refl _ _
      | ok fs₁ =>
        have hadds := (folders_of_makeAll hmade).1
        have hplace : fs.entries.find? (Path.place path) = some (.document bytes) := by
          unfold find? at hfound
          split at hfound
          · cases hfound
          · exact hfound
        have hsame := hadds.keeps hplace
        intro k
        show (fs₁.put path (.document bytes)).entries.find? k = _ ∨ _
        by_cases hk : k = Path.place path
        · exact .inl (by simp [put, hk, hplace])
        · simpa [put, hk] using hadds k
    · cases hlog
    · cases hlog
  | _ => exact .refl _ _

/-- A database takes the place of the one that was there, and of nothing else. -/
theorem Opened.find?_put (h : fs.Opened path db) (db' : Database) (other : String) :
    (fs.put path (.database db')).find? other = fs.find? other ∨
      (fs.put path (.database db')).find? other = some (.database db') ∧
        fs.find? other = some (.database db) := by
  unfold Files.find?
  split
  · exact .inl rfl
  · by_cases hk : Path.place other = Path.place path
    · exact .inr ⟨by simp [Files.put, hk], hk ▸ h.found⟩
    · exact .inl (by simp [Files.put, hk])

theorem Opened.log_put (h : fs.Opened path db) (db' : Database) (other : String) :
    (fs.put path (.database db')).log other = fs.log other := by
  obtain hsame | ⟨hnew, hold⟩ := h.find?_put db' other
  · rw [log, log, hsame]
  · rw [log, log, hnew, hold]

end Files

namespace Project

open Files

variable {p : Project} {fs fs' : Files} {db db' : Database}

theorem check_of_loadSettings {root : String} {s : Settings} (h : loadSettings root fs = .ok s) :
    s.check = .ok () := by
  unfold loadSettings at h
  split at h
  · rename_i file _
    cases file with
    | none =>
      cases h
      have hfaults : ({} : Settings).faults = [] := by decide +kernel
      rw [Settings.check, hfaults]
    | some bytes =>
      simp only [Settings.loadOrDefault, Settings.load] at h
      split at h
      · cases h
      · split at h
        · cases h
        · split at h
          · rename_i hcheck
            cases h
            exact hcheck
          · cases h
  · cases h

/-- There are settings in a document, or there is nothing in its place and they are the default
ones. -/
theorem settings_of_loadSettings {root : String} {s : Settings}
    (h : loadSettings root fs = .ok s) :
    (∃ bytes, fs.find? (settingsPath root) = some (.document bytes)) ∨
      fs.find? (settingsPath root) = none ∧ s = {} := by
  unfold loadSettings Files.read at h
  cases hfound : fs.find? (settingsPath root) with
  | none =>
    rw [hfound] at h
    cases h
    exact .inr ⟨rfl, rfl⟩
  | some file =>
    rw [hfound] at h
    cases file with
    | document bytes => exact .inl ⟨bytes, rfl⟩
    | folder => cases h
    | database db => cases h

theorem loadSettings_congr {root : String}
    (h : fs'.find? (settingsPath root) = fs.find? (settingsPath root)) :
    loadSettings root fs' = loadSettings root fs := by
  rw [loadSettings, loadSettings, Files.read, Files.read, h]

/-- Where processes make folders, and a database. -/
def sites (p : Project) : List String :=
  Path.ancestors p.databasePath ++ [Path.place p.databasePath] ++ Path.ancestors p.logPath

theorem hidden_settings : Path.Hidden ".tether/config.toml" "config.toml" :=
  Path.hidden_of_name (by decide) (by decide) (by decide) (by decide)

theorem hidden_database : Path.Hidden ".tether/registry.db" "registry.db" :=
  Path.hidden_of_name (by decide) (by decide) (by decide) (by decide)

theorem hidden_log : Path.Hidden ".tether/degraded.jsonl" "degraded.jsonl" :=
  Path.hidden_of_name (by decide) (by decide) (by decide) (by decide)

/-- Settings that there are stay, and in the place of missing ones nothing is ever made. -/
theorem loadSettings_of_adds (h : loadSettings p.root fs = .ok p.settings)
    (ha : fs.Adds p.sites fs') : loadSettings p.root fs' = .ok p.settings := by
  have hway : (Path.way (settingsPath p.root)).isEmpty = false := by
    rw [settingsPath, hidden_settings.way_join]
    simp
  have hentry : ∀ fs : Files, fs.find? (settingsPath p.root) =
      fs.entries.find? (Path.place (settingsPath p.root)) := by
    intro fs
    rw [Files.find?, hway]
    rfl
  rw [loadSettings_congr, h]
  rw [hentry, hentry]
  obtain ⟨bytes, hfound⟩ | ⟨_, hdefault⟩ := settings_of_loadSettings h
  · rw [hentry] at hfound
    rw [hfound, ha.keeps hfound]
  · obtain heq | ⟨hsite, _⟩ := ha (Path.place (settingsPath p.root))
    · exact heq
    · exfalso
      rw [sites, databasePath, logPath, hdefault, List.mem_append, List.mem_append,
        List.mem_singleton] at hsite
      obtain (hsite | hsite) | hsite := hsite
      · exact hidden_settings.place_notMem_ancestors hidden_database hsite
      · exact hidden_settings.place_ne hidden_database (by decide) hsite
      · exact hidden_settings.place_notMem_ancestors hidden_log hsite

/-- What a process finds in the files of a project. -/
structure Finds (p : Project) (db : Database) (fs : Files) : Prop where
  settings : loadSettings p.root fs = .ok p.settings
  opens : (fs.openDatabase p.databasePath).1 = .ok db

/-- There is no way to the registry. -/
structure Barred (p : Project) (fs : Files) : Prop where
  settings : loadSettings p.root fs = .ok p.settings
  bars : ∃ e, (fs.openDatabase p.databasePath).1 = .error e
  none : ∀ db, fs.find? p.databasePath ≠ some (.database db)

theorem finds_or_barred (hs : loadSettings p.root fs = .ok p.settings)
    (hnone : fs.find? p.databasePath = none) : p.Finds .empty fs ∨ p.Barred fs := by
  cases hopen : fs.openDatabase p.databasePath with
  | mk a fs' =>
    cases a with
    | ok db =>
      obtain rfl := (opened_of_open hopen).2.2 hnone
      exact .inl ⟨hs, by rw [hopen]⟩
    | error e => exact .inr ⟨hs, ⟨e, by rw [hopen]⟩, by simp [hnone]⟩

/-- The files once the registry is open. -/
theorem Finds.opened (h : p.Finds db fs) : ∃ fs', fs.openDatabase p.databasePath = (.ok db, fs') ∧
    fs'.Opened p.databasePath db ∧ loadSettings p.root fs' = .ok p.settings := by
  obtain ⟨hs, hopens⟩ := h
  cases hopen : fs.openDatabase p.databasePath with
  | mk a fs' =>
    rw [hopen] at hopens
    cases hopens
    obtain ⟨hopened, hadds, _⟩ := opened_of_open hopen
    exact ⟨fs', rfl, hopened,
      loadSettings_of_adds hs (hadds.mono (List.subset_append_left ..))⟩

/-- The next process finds what this one leaves. -/
theorem finds_putBack {h : Simulation.Host} (hopened : fs.Opened p.databasePath db)
    (hs : loadSettings p.root fs = .ok p.settings) (hstore : h.store = .database db')
    (hlog : h.log = fs.log p.logPath) : p.Finds db' (p.putBack fs h) := by
  have hput := hopened.put db'
  have hsettings : loadSettings p.root (fs.put p.databasePath (.database db')) =
      .ok p.settings := by
    rw [loadSettings_congr, hs]
    obtain hsame | ⟨_, hold⟩ := hopened.find?_put db' (settingsPath p.root)
    · exact hsame
    · obtain ⟨bytes, hfound⟩ | ⟨hfound, _⟩ := settings_of_loadSettings hs
      · rw [hfound] at hold
        cases hold
      · rw [hfound] at hold
        cases hold
  have hadds := adds_putLog (fs.put p.databasePath (.database db')) p.logPath
  rw [hopened.log_put, ← hlog] at hadds
  rw [putBack, hstore]
  refine ⟨loadSettings_of_adds hsettings (hadds.mono (List.subset_append_right ..)), ?_⟩
  rw [(hput.adds hadds).openDatabase]

theorem find?_putBack {h : Simulation.Host} (hopened : fs.Opened p.databasePath db)
    (hstore : h.store = .database db') (hlog : h.log = fs.log p.logPath) :
    (p.putBack fs h).find? p.databasePath = some (.database db') := by
  have hadds := adds_putLog (fs.put p.databasePath (.database db')) p.logPath
  rw [hopened.log_put, ← hlog] at hadds
  rw [putBack, hstore]
  exact ((hopened.put db').adds hadds).find?

/-- What a process that is barred has made on its way does not help the next one. -/
theorem Barred.opens (h : p.Barred fs) : ∃ e fs',
    fs.openDatabase p.databasePath = (.error e, fs') ∧ p.Barred fs' := by
  obtain ⟨hs, ⟨e, he⟩, hnone⟩ := h
  cases hopen : fs.openDatabase p.databasePath with
  | mk a fs' =>
    rw [hopen] at he
    cases he
    obtain ⟨hadds, hagain, hfound⟩ := barred_of_open hopen
    have hsites : Path.ancestors p.databasePath ⊆ p.sites :=
      List.subset_append_of_subset_left _ (List.subset_append_left ..)
    exact ⟨e, fs', rfl, loadSettings_of_adds hs (hadds.mono hsites), hagain,
      fun db hdb => hnone db (hfound db hdb)⟩

end Project
end WorkerGuard
