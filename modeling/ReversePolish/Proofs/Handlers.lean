/-
Who owns the handlers of a hub. A hub's own handlers come in outfits of at most
a console and at most a file, and bear numbers that none bore before. Those that
are attached are all that the hub remembers or none of them; so the next
configuration takes them away, whatever comes of it, and never touches a handler
of the application's (`Session.steps_accounted`).
-/
import Mathlib.Data.List.Basic
import ReversePolish.Session

namespace ReversePolish
namespace Log

/-! ## Taking items out of a list -/

theorem filter_diff {α : Type} [DecidableEq α] (p : α → Bool) (l l' : List α) :
    (l.diff l').filter p = (l.filter p).diff l' := by
  induction l' generalizing l with
  | nil => rfl
  | cons x l' ih => rw [List.diff_cons, List.diff_cons, ih, List.erase_filter]

theorem diff_self {α : Type} [DecidableEq α] (l : List α) : l.diff l = [] := by
  induction l with
  | nil => rfl
  | cons x l ih => rw [List.diff_cons, List.erase_cons_head, ih]

theorem diff_of_apart {α : Type} [DecidableEq α] {l l' : List α} (apart : ∀ x ∈ l', x ∉ l) :
    l.diff l' = l := by
  induction l' with
  | nil => rfl
  | cons x l' ih =>
    rw [List.diff_cons, List.erase_of_not_mem (apart x (List.mem_cons_self ..))]
    exact ih fun y hy => apart y (List.mem_cons_of_mem x hy)

/-! ## Handlers -/

namespace Handler

/-- The number of a handler of a hub's own. -/
def serial? : Handler → Option Nat
  | .console n => some n
  | .file n _ => some n
  | .null => none
  | .application _ => none

def isOwn (x : Handler) : Bool := x.serial?.isSome

def isConsole : Handler → Bool
  | .console _ => true
  | _ => false

def isFile : Handler → Bool
  | .file _ _ => true
  | _ => false

def isApplication : Handler → Bool
  | .application _ => true
  | _ => false

theorem isOwn_of_other {x : Handler} (some : x ≠ .null) (other : x.isApplication = false) :
    x.isOwn = true := by
  cases x with
  | null => exact absurd rfl some
  | console n => rfl
  | file n place => rfl
  | application id => cases other

theorem isOwn_of_isConsole {x : Handler} (h : x.isConsole = true) : x.isOwn = true := by
  cases x <;> first | rfl | cases h

theorem isOwn_of_isFile {x : Handler} (h : x.isFile = true) : x.isOwn = true := by
  cases x <;> first | rfl | cases h

end Handler

/-! ## Outfits -/

/-- What a configuration installs: at most a console, then at most a file. The numbers are those
from the one on and below the other. -/
inductive Outfit (first next : Nat) : List Handler → Prop
  | bare : Outfit first next []
  | console {n : Nat} : first ≤ n → n < next → Outfit first next [.console n]
  | file {n : Nat} (place : Place) : first ≤ n → n < next → Outfit first next [.file n place]
  | both {n m : Nat} (place : Place) : first ≤ n → n < m → m < next →
    Outfit first next [.console n, .file m place]

namespace Outfit

variable {first next : Nat} {l : List Handler}

theorem mono {first' next' : Nat} (h : Outfit first next l) (lower : first' ≤ first)
    (upper : next ≤ next') : Outfit first' next' l := by
  cases h with
  | bare => exact .bare
  | console hn hn' => exact .console (Nat.le_trans lower hn) (Nat.lt_of_lt_of_le hn' upper)
  | file place hn hn' => exact .file place (Nat.le_trans lower hn) (Nat.lt_of_lt_of_le hn' upper)
  | both place hn hm hm' =>
    exact .both place (Nat.le_trans lower hn) hm (Nat.lt_of_lt_of_le hm' upper)

theorem serial (h : Outfit first next l) {x : Handler} (hx : x ∈ l) :
    ∃ n, x.serial? = some n ∧ first ≤ n ∧ n < next := by
  cases h with
  | bare => cases hx
  | console hn hn' =>
    cases List.mem_singleton.mp hx
    exact ⟨_, rfl, hn, hn'⟩
  | file place hn hn' =>
    cases List.mem_singleton.mp hx
    exact ⟨_, rfl, hn, hn'⟩
  | both place hn hm hm' =>
    rcases List.mem_pair.mp hx with rfl | rfl
    · exact ⟨_, rfl, hn, Nat.lt_trans hm hm'⟩
    · exact ⟨_, rfl, Nat.le_trans hn (Nat.le_of_lt hm), hm'⟩

theorem isOwn (h : Outfit first next l) {x : Handler} (hx : x ∈ l) : x.isOwn = true := by
  obtain ⟨n, serial, -⟩ := h.serial hx
  rw [Handler.isOwn, serial]
  rfl

theorem not_isApplication (h : Outfit first next l) {x : Handler} (hx : x ∈ l) :
    x.isApplication = false := by
  have own := h.isOwn hx
  cases x <;> first | rfl | cases own

theorem nodup (h : Outfit first next l) : l.Nodup := by
  cases h <;> simp

theorem countP_isConsole_le (h : Outfit first next l) : l.countP Handler.isConsole ≤ 1 := by
  cases h with
  | bare | file => exact Nat.zero_le 1
  | console | both => exact Nat.le_refl 1

theorem countP_isFile_le (h : Outfit first next l) : l.countP Handler.isFile ≤ 1 := by
  cases h with
  | bare | console => exact Nat.zero_le 1
  | file | both => exact Nat.le_refl 1

end Outfit

/-! ## Tidy hubs -/

namespace Hub

/-- The attached handlers that are the hub's own. -/
def own (h : Hub) : List Handler := h.handlers.filter Handler.isOwn

/-- The attached handlers that are the application's. -/
def applications (h : Hub) : List Handler := h.handlers.filter Handler.isApplication

/-- What holds of a hub at any time: it remembers an outfit, of which all or nothing is attached,
and nothing else of its own is. -/
structure Tidy (h : Hub) : Prop where
  outfit : Outfit 0 h.next h.installed
  attached : h.own = [] ∨ h.own = h.installed

theorem Tidy.mem_installed {h : Hub} (tidy : h.Tidy) {x : Handler} (hx : x ∈ h.own) :
    x ∈ h.installed := by
  rcases tidy.attached with none | all
  · rw [none] at hx
    cases hx
  · exact all ▸ hx

/-- Nothing that is at most once in an outfit is attached more often. -/
theorem Tidy.countP_le {h : Hub} (tidy : h.Tidy) {p : Handler → Bool}
    (own : ∀ {x : Handler}, p x = true → x.isOwn = true) (once : h.installed.countP p ≤ 1) :
    h.handlers.countP p ≤ 1 := by
  have counted : h.handlers.countP p = h.own.countP p := by
    rw [Hub.own, List.countP_filter]
    exact List.countP_congr fun x _ => by simpa using fun hp => own hp
  rw [counted]
  rcases tidy.attached with none | all
  · rw [none]
    exact Nat.zero_le 1
  · rw [all]
    exact once

/-! ## Taking handlers away -/

theorem close_eq_with (h : Hub) (x : Handler) :
    ∃ output, (h.close x).1 = { h with output := output } := by
  cases x <;> exact ⟨_, rfl⟩

/-- Only files can fail to be closed. -/
theorem release_console (h : Hub) (n : Nat) (rest : List Handler) :
    h.release (.console n :: rest) = (h.detach (.console n)).release rest := rfl

/-- A last handler is taken away before it is closed, so that goes well in any case. -/
theorem release_last (h : Hub) (x : Handler) :
    ∃ output, (h.release [x]).1 = { h.detach x with output := output } := by
  obtain ⟨output, closed⟩ := (h.detach x).close_eq_with x
  refine ⟨output, ?_⟩
  rw [release]
  split
  next hub done => rw [done] at closed; exact closed
  next hub cause done => rw [done] at closed; exact closed

/-- All of an outfit is taken away, whether its file is closed as it should be or not. -/
theorem release_eq_with {first next : Nat} {l : List Handler} (outfit : Outfit first next l)
    (h : Hub) :
    ∃ output, (h.release l).1 = { h with handlers := h.handlers.diff l, output := output } := by
  cases outfit with
  | bare => exact ⟨h.output, rfl⟩
  | @console n =>
    obtain ⟨output, released⟩ := h.release_last (.console n)
    exact ⟨output, by rw [released, List.diff_cons]; rfl⟩
  | @file n place =>
    obtain ⟨output, released⟩ := h.release_last (.file n place)
    exact ⟨output, by rw [released, List.diff_cons]; rfl⟩
  | @both n m place =>
    obtain ⟨output, released⟩ := (h.detach (.console n)).release_last (.file m place)
    exact ⟨output, by rw [release_console, released, List.diff_cons, List.diff_cons]; rfl⟩

/-- Nothing of the hub's own is attached any more, and whatever is the application's is. -/
structure Stripped (h h' : Hub) : Prop where
  level : h'.level = h.level
  next : h'.next = h.next
  own : h'.own = []
  applications : h'.applications = h.applications

theorem stripped_diff {h : Hub} (tidy : h.Tidy) (output : Output) (installed : List Handler) :
    Stripped h { h with
      handlers := h.handlers.diff h.installed, output := output, installed := installed } where
  level := rfl
  next := rfl
  own := by
    rw [own, filter_diff]
    rcases tidy.attached with none | all
    · rw [← own, none, List.nil_diff]
    · rw [← own, all, diff_self]
  applications := by
    rw [applications, filter_diff]
    refine diff_of_apart fun x hx attached => ?_
    have application := (List.mem_filter.mp attached).2
    rw [tidy.outfit.not_isApplication hx] at application
    cases application

/-- The outfit is forgotten unless there was an error. -/
theorem uninstall_cases {h : Hub} (tidy : h.Tidy) :
    (∃ h', h.uninstall = (h', none) ∧ Stripped h h' ∧ h'.installed = []) ∨
      ∃ h' cause, h.uninstall = (h', some cause) ∧ Stripped h h' ∧ h'.installed = h.installed := by
  obtain ⟨output, released⟩ := release_eq_with tidy.outfit h
  rw [uninstall]
  split
  next h' done =>
    rw [done] at released
    obtain rfl := released
    exact .inl ⟨_, rfl, stripped_diff tidy output [], rfl⟩
  next h' cause done =>
    rw [done] at released
    obtain rfl := released
    exact .inr ⟨_, cause, rfl, stripped_diff tidy output h.installed, rfl⟩

/-! ## Attaching handlers -/

theorem foldl_attach_eq_with {l : List Handler} (unique : l.Nodup) {h : Hub}
    (apart : ∀ x ∈ l, x ∉ h.handlers) :
    l.foldl attach h = { h with handlers := h.handlers ++ l } := by
  induction l generalizing h with
  | nil => simp only [List.foldl_nil, List.append_nil]
  | cons x l ih =>
    obtain ⟨new, unique⟩ := List.nodup_cons.mp unique
    have attached : h.attach x = { h with handlers := h.handlers ++ [x] } :=
      if_neg (by rw [List.contains_iff_mem]; exact apart x (List.mem_cons_self ..))
    rw [List.foldl_cons, attached, ih unique]
    · simp only [List.append_assoc, List.singleton_append]
    · intro y hy
      rw [List.mem_append, List.mem_singleton, not_or]
      exact ⟨apart y (List.mem_cons_of_mem x hy), fun same => new (same ▸ hy)⟩

/-- What a configuration at a level comes to: all that is attached of the hub's own is new, or
there is nothing, and there is no console if the level is silent. -/
structure Renewed (h : Hub) (level : Level) (h' : Hub) : Prop where
  tidy : h'.Tidy
  applications : h'.applications = h.applications
  fresh : ∀ x ∈ h'.own, ∃ n, x.serial? = some n ∧ h.next ≤ n
  silent : level = .silent → ∀ x ∈ h'.own, x.isConsole = false

theorem renewed_unattached {h h' : Hub} {level : Level} (outfit : Outfit 0 h'.next h'.installed)
    (bare : h'.own = []) (applications : h'.applications = h.applications) :
    Renewed h level h' where
  tidy := ⟨outfit, .inl bare⟩
  applications := applications
  fresh x hx := by
    rw [bare] at hx
    cases hx
  silent _ x hx := by
    rw [bare] at hx
    cases hx

theorem renewed_attached {h h' : Hub} {level : Level} (handlers : h'.handlers = h.handlers)
    (bare : h.own = []) (outfit : Outfit h.next h'.next h'.installed)
    (silent : level = .silent → ∀ x ∈ h'.installed, x.isConsole = false) :
    Renewed h level (h'.installed.foldl attach h') := by
  have apart : ∀ x ∈ h'.installed, x ∉ h'.handlers := fun x hx attached => by
    have mem : x ∈ h.own := List.mem_filter.mpr ⟨handlers ▸ attached, outfit.isOwn hx⟩
    rw [bare] at mem
    cases mem
  rw [foldl_attach_eq_with outfit.nodup apart]
  have all : ({ h' with handlers := h'.handlers ++ h'.installed } : Hub).own = h'.installed := by
    have own : h'.installed.filter Handler.isOwn = h'.installed :=
      List.filter_eq_self.mpr fun _ hx => outfit.isOwn hx
    rw [Hub.own, List.filter_append, own, handlers, ← Hub.own, bare, List.nil_append]
  refine ⟨⟨outfit.mono (Nat.zero_le _) (Nat.le_refl _), .inr all⟩, ?_, fun x hx => ?_,
    fun level x hx => silent level x (all ▸ hx)⟩
  · have none : h'.installed.filter Handler.isApplication = [] :=
      List.filter_eq_nil_iff.mpr fun _ hx => by simp [outfit.not_isApplication hx]
    rw [applications, List.filter_append, none, List.append_nil, handlers, ← applications]
  · rw [all] at hx
    obtain ⟨n, serial, new, -⟩ := outfit.serial hx
    exact ⟨n, serial, new⟩

/-! ## Configuring -/

/-- The first thing that is installed is a console, unless the level is silent. -/
def withConsole (h : Hub) : Hub := if h.level = .silent then h else h.install .console

section Equip

variable {h : Hub} (forgotten : h.installed = [])
include forgotten

theorem withConsole_silent (silent : h.level = .silent) : h.withConsole.installed = [] := by
  rw [withConsole, if_pos silent, forgotten]

/-- It is an outfit, alone and with a file. -/
theorem withConsole_outfit :
    Outfit h.next h.withConsole.next h.withConsole.installed ∧ ∀ place, Outfit h.next
      (h.withConsole.next + 1) (h.withConsole.installed ++ [.file h.withConsole.next place]) := by
  rw [withConsole]
  split
  · rw [forgotten]
    exact ⟨.bare, fun place => .file place (Nat.le_refl _) (Nat.lt_succ_self _)⟩
  · have installed : (h.install .console).installed = [.console h.next] := by
      rw [install, forgotten]
      rfl
    rw [installed]
    exact ⟨.console (Nat.le_refl _) (Nat.lt_succ_self _), fun place =>
      .both place (Nat.le_refl _) (Nat.lt_succ_self _) (Nat.lt_succ_self _)⟩

theorem equip_renewed (bare : h.own = []) (path? : Option Datum) :
    Renewed h h.level (h.equip path?).1 := by
  have handlers : h.withConsole.handlers = h.handlers := by rw [withConsole]; split <;> rfl
  obtain ⟨alone, withFile⟩ := withConsole_outfit forgotten
  cases path? with
  | none =>
    change Renewed h h.level (h.withConsole.installed.foldl attach h.withConsole)
    refine renewed_attached handlers bare alone fun silent x hx => ?_
    rw [withConsole_silent forgotten silent] at hx
    cases hx
  | some path =>
    rw [equip, ← withConsole]
    split
    next place found =>
      refine renewed_attached handlers bare (withFile place) fun silent x hx => ?_
      have file : x ∈ h.withConsole.installed ++ [.file h.withConsole.next place] := hx
      rw [withConsole_silent forgotten silent, List.nil_append, List.mem_singleton] at file
      rw [file]
      rfl
    next cause refused =>
      refine renewed_unattached (alone.mono (Nat.zero_le _) (Nat.le_refl _)) ?_ ?_
      · rw [own, handlers, ← own, bare]
      · rw [applications, handlers, ← applications]

end Equip

/-- **A configuration renews the hub's own handlers**, whatever comes of it, and no others. -/
theorem configure_renewed {h : Hub} (tidy : h.Tidy) (level : Level) (path? : Option Datum) :
    Renewed h level (h.configure level path?).1 := by
  have same : Tidy { h with level := level, configured := true } := ⟨tidy.outfit, tidy.attached⟩
  rw [configure]
  rcases uninstall_cases same with ⟨h', done, stripped, forgotten⟩ |
    ⟨h', cause, failed, stripped, installed⟩
  · simp only [done]
    have renewed := equip_renewed forgotten stripped.own path?
    refine ⟨renewed.tidy, renewed.applications.trans stripped.applications, fun x hx => ?_,
      fun silent => renewed.silent (stripped.level.trans silent)⟩
    obtain ⟨n, serial, new⟩ := renewed.fresh x hx
    exact ⟨n, serial, Nat.le_trans (Nat.le_of_eq stripped.next.symm) new⟩
  · simp only [failed]
    refine renewed_unattached ?_ stripped.own stripped.applications
    rw [installed, stripped.next]
    exact tidy.outfit

/-! ## The application's handlers -/

theorem Tidy.of_own {h h' : Hub} (tidy : h.Tidy) (installed : h'.installed = h.installed)
    (next : h'.next = h.next) (own : h'.own = h.own) : h'.Tidy := by
  refine ⟨?_, ?_⟩
  · rw [installed, next]
    exact tidy.outfit
  · rw [installed, own]
    exact tidy.attached

theorem mem_applications {h : Hub} {id : Nat} :
    .application id ∈ h.applications ↔ .application id ∈ h.handlers := by
  rw [applications, List.mem_filter]
  exact and_iff_left rfl

theorem own_attach (h : Hub) (id : Nat) : (h.attach (.application id)).own = h.own := by
  rw [attach]
  split
  · rfl
  · rw [own, List.filter_append]
    exact List.append_nil _

theorem own_detach (h : Hub) (id : Nat) : (h.detach (.application id)).own = h.own := by
  rw [own, detach, ← List.erase_filter, List.erase_of_not_mem, ← own]
  intro attached
  cases (List.mem_filter.mp attached).2

theorem tidy_attach {h : Hub} (tidy : h.Tidy) (id : Nat) : (h.attach (.application id)).Tidy :=
  tidy.of_own (by rw [attach]; split <;> rfl) (by rw [attach]; split <;> rfl) (h.own_attach id)

theorem tidy_detach {h : Hub} (tidy : h.Tidy) (id : Nat) : (h.detach (.application id)).Tidy :=
  tidy.of_own rfl rfl (h.own_detach id)

section Applications

variable {h : Hub} {ids : List Nat} (listed : h.applications = ids.map Handler.application)
include listed

theorem applications_attach (id : Nat) : (h.attach (.application id)).applications =
    (if ids.contains id then ids else ids ++ [id]).map Handler.application := by
  have same : h.handlers.contains (.application id) = ids.contains id := by
    rw [Bool.eq_iff_iff, List.contains_iff_mem, List.contains_iff_mem, ← mem_applications, listed,
      List.mem_map_of_injective fun _ _ eq => Handler.application.inj eq]
  rw [attach, same]
  split
  · exact listed
  · rw [applications, List.filter_append, ← applications, listed, List.map_append]
    rfl

theorem applications_detach (id : Nat) : (h.detach (.application id)).applications =
    (ids.erase id).map Handler.application := by
  rw [applications, detach, ← List.erase_filter, ← applications, listed,
    List.map_erase fun _ _ eq => Handler.application.inj eq]

end Applications

/-! ## Passing messages on -/

theorem send_eq_with (h : Hub) (m : Message) :
    ∃ output, h.send m = { h with output := output } := by
  rw [send]
  split
  · exact ⟨_, rfl⟩
  · exact ⟨h.output, rfl⟩

theorem sendAll_eq_with (h : Hub) (ms : List Message) :
    ∃ output, h.sendAll ms = { h with output := output } := by
  induction ms generalizing h with
  | nil => exact ⟨h.output, rfl⟩
  | cons m ms ih =>
    obtain ⟨output, sent⟩ := h.send_eq_with m
    obtain ⟨output', rest⟩ := ih (h.send m)
    exact ⟨output', by rw [sendAll, List.foldl_cons, ← sendAll, rest, sent]⟩

theorem sendAt_eq_with (h : Hub) (level : Level) (m : Message) :
    ∃ output, h.sendAt level m = { h with output := output } := by
  rw [sendAt]
  split
  · exact h.send_eq_with m
  · exact ⟨h.output, rfl⟩

end Hub
end Log

namespace Session

open Log (Hub Level Handler)

/-! ## Steps -/

/-- Is the step one that leaves all handlers as they are? -/
def Step.isQuiet : Step → Bool
  | .configure _ _ | .attach _ | .detach _ => false
  | _ => true

theorem create_eq_with (h : Hub) (entries : List Entry) (userNames : Datum) :
    ∃ output, (create h entries userNames).1 = { h with output := output } := by
  rw [create]
  split
  next e made => exact h.sendAll_eq_with _
  next => exact ⟨h.output, rfl⟩

theorem step_eq_with (h : Hub) {s : Step} (quiet : s.isQuiet = true) :
    ∃ level output, (step h s).1 = { h with level := level, output := output } := by
  cases s with
  | configure | attach | detach => cases quiet
  | setLevel level => exact ⟨level, h.output, rfl⟩
  | level | admits | debugging => exact ⟨h.level, h.output, rfl⟩
  | report m => exact ⟨h.level, h.sendAt_eq_with h.level m⟩
  | reportAt level m => exact ⟨h.level, h.sendAt_eq_with level m⟩
  | create entries userNames =>
    obtain ⟨output, made⟩ := create_eq_with h entries userNames
    refine ⟨h.level, output, ?_⟩
    simp only [step]
    split <;> next eq => rw [eq] at made; exact made
  | on entries userNames s =>
    obtain ⟨output, made⟩ := create_eq_with h entries userNames
    simp only [step]
    split
    next h' e eq =>
      rw [eq] at made
      obtain ⟨output', sent⟩ := h'.sendAll_eq_with (e.step h'.level s).2.messages
      exact ⟨h.level, output', by rw [sent]; cases made; rfl⟩
    next h' cause eq =>
      rw [eq] at made
      exact ⟨h.level, output, made⟩

theorem step_configure (h : Hub) (level : Level) (path? : Option Datum) :
    (step h (.configure level path?)).1 = (h.configure level path?).1 := by
  simp only [step]
  split <;> next eq => rw [eq]

/-! ## The ledger -/

/-- The application's handlers after a step, by those before it. -/
def registered (ids : List Nat) : Step → List Nat
  | .attach id => if ids.contains id then ids else ids ++ [id]
  | .detach id => ids.erase id
  | _ => ids

/-- The handlers that the application attached in a script and did not detach, in order. -/
def ledger (script : List Step) : List Nat := script.foldl registered []

/-- The level that was configured after a step, by the one before it. -/
def configured (last : Option Level) : Step → Option Level
  | .configure level _ => some level
  | _ => last

/-- The level of the last configuration in a script. -/
def lastLevel? (script : List Step) : Option Level := script.foldl configured none

theorem ledger_concat (script : List Step) (s : Step) :
    ledger (script ++ [s]) = registered (ledger script) s := by
  rw [ledger, List.foldl_append]
  rfl

theorem lastLevel?_concat (script : List Step) (s : Step) :
    lastLevel? (script ++ [s]) = configured (lastLevel? script) s := by
  rw [lastLevel?, List.foldl_append]
  rfl

/-- What holds after a script. -/
structure Owned (script : List Step) (h : Hub) : Prop where
  tidy : h.Tidy
  applications : h.applications = (ledger script).map Handler.application
  silent : lastLevel? script = some .silent → ∀ x ∈ h.own, x.isConsole = false

theorem owned_start (output : Log.Output) : Owned [] { Hub.start with output := output } :=
  ⟨⟨.bare, .inl rfl⟩, rfl, fun h => by cases h⟩

/-- **Every step keeps who owns what.** -/
theorem Owned.step {script : List Step} {h : Hub} (owned : Owned script h) (s : Step) :
    Owned (script ++ [s]) (step h s).1 := by
  by_cases quiet : s.isQuiet = true
  · -- No ledger records such a step, and it leaves all handlers as they are.
    obtain ⟨level, output, after⟩ := step_eq_with h quiet
    have ledger : registered (ledger script) s = ledger script := by
      cases s <;> first | rfl | cases quiet
    have last : configured (lastLevel? script) s = lastLevel? script := by
      cases s <;> first | rfl | cases quiet
    rw [after]
    refine ⟨owned.tidy.of_own rfl rfl rfl, ?_, ?_⟩
    · rw [ledger_concat, ledger]
      exact owned.applications
    · rw [lastLevel?_concat, last]
      exact owned.silent
  · cases s with
    | configure level path? =>
      have renewed := Hub.configure_renewed owned.tidy level path?
      rw [step_configure]
      refine ⟨renewed.tidy, ?_, fun silent => renewed.silent ?_⟩
      · rw [renewed.applications, ledger_concat]
        exact owned.applications
      · rw [lastLevel?_concat] at silent
        exact Option.some.inj silent
    | attach id =>
      refine ⟨Hub.tidy_attach owned.tidy id, ?_, ?_⟩
      · rw [ledger_concat]
        exact Hub.applications_attach owned.applications id
      · rw [lastLevel?_concat]
        exact fun silent x hx => owned.silent silent x (h.own_attach id ▸ hx)
    | detach id =>
      refine ⟨Hub.tidy_detach owned.tidy id, ?_, ?_⟩
      · rw [ledger_concat]
        exact Hub.applications_detach owned.applications id
      · rw [lastLevel?_concat]
        exact fun silent x hx => owned.silent silent x (h.own_detach id ▸ hx)
    | _ => exact absurd rfl quiet

/-- **So does every run.** -/
theorem Owned.steps {before rest : List Step} {h : Hub} (owned : Owned before h) {i : Nat}
    {r : Except StepError Reply × Hub} (at_i : (steps h rest)[i]? = some r) :
    Owned (before ++ rest.take (i + 1)) r.2 := by
  induction rest generalizing before h i with
  | nil => cases at_i
  | cons s rest ih =>
    have seen : Owned before h.seen :=
      ⟨owned.tidy.of_own rfl rfl rfl, owned.applications, owned.silent⟩
    have next := seen.step s
    cases i with
    | zero =>
      cases at_i
      exact next
    | succ i =>
      have rest := ih next at_i
      rw [List.append_assoc] at rest
      exact rest

/-- Who owns which of the attached handlers after a script. -/
structure Accounted (script : List Step) (h : Hub) : Prop where
  /-- The application's are those that it attached and did not detach, in order. -/
  applications : h.handlers.filter Handler.isApplication = (ledger script).map Handler.application
  /-- All others are remembered, but for the one that drops everything. -/
  remembered : ∀ x ∈ h.handlers, x ≠ .null → x.isApplication = false → x ∈ h.installed
  /-- Whatever is remembered goes with the next configuration, also if that has no result. -/
  released : ∀ level path?, ∀ x ∈ h.installed,
    x ∉ (step h.seen (.configure level path?)).1.handlers
  console : h.handlers.countP Handler.isConsole ≤ 1
  file : h.handlers.countP Handler.isFile ≤ 1
  /-- There is no console after a configuration at the silent level, up to the next one. -/
  silent : lastLevel? script = some .silent → ∀ x ∈ h.handlers, x.isConsole = false

theorem Owned.accounted {script : List Step} {h : Hub} (owned : Owned script h) :
    Accounted script h where
  applications := owned.applications
  remembered x hx some other :=
    owned.tidy.mem_installed (List.mem_filter.mpr ⟨hx, Handler.isOwn_of_other some other⟩)
  released level path? x hx kept := by
    have renewed := Hub.configure_renewed (h := h.seen) (owned.tidy.of_own rfl rfl rfl) level path?
    rw [step_configure] at kept
    obtain ⟨n, old, -, below⟩ := owned.tidy.outfit.serial hx
    have own := List.mem_filter.mpr ⟨kept, owned.tidy.outfit.isOwn hx⟩
    obtain ⟨m, new, above⟩ := renewed.fresh x own
    obtain rfl : n = m := Option.some.inj (old.symm.trans new)
    exact absurd below (Nat.not_lt.mpr above)
  console := owned.tidy.countP_le Handler.isOwn_of_isConsole owned.tidy.outfit.countP_isConsole_le
  file := owned.tidy.countP_le Handler.isOwn_of_isFile owned.tidy.outfit.countP_isFile_le
  silent last x hx := by
    cases console : x.isConsole with
    | false => rfl
    | true =>
      have own := List.mem_filter.mpr ⟨hx, Handler.isOwn_of_isConsole console⟩
      rw [owned.silent last x own] at console
      cases console

/-- **Every handler is accounted for**, at the start and after each step of a script: whatever files
there are, whatever is configured, with or without success, whatever the application attaches and
detaches, and whatever expressions are made in between. -/
theorem steps_accounted (output : Log.Output) (script : List Step) :
    let first := { Hub.start with output := output }
    Accounted [] first ∧ ∀ i result h, (steps first script)[i]? = some (result, h) →
      Accounted (script.take (i + 1)) h :=
  ⟨(owned_start output).accounted,
    fun _ _ _ at_i => ((owned_start output).steps at_i).accounted⟩

/-- Configurations with and without success around the application's own handlers. -/
def interleaved : List Step :=
  [.configure .verbose (some (.text "a")), .attach 1, .attach 2, .attach 1,
    .configure .minimal (some (.whole 0)), .create [.token (.name "x")] (.list []),
    .configure .silent none, .detach 1, .attach 1]

/-- The hub with its first outfit. -/
def equipped : Hub where
  level := .verbose
  configured := true
  handlers := [.null, .console 0, .file 1 ["tmp", "work", "a"]]
  installed := [.console 0, .file 1 ["tmp", "work", "a"]]
  next := 2
  output := ⟨[], { Log.FileSystem.usual with files := [(["tmp", "work", "a"], [])] }, []⟩

theorem place?_a : Log.FileSystem.usual.seen.place? (.text "a") = .ok ["tmp", "work", "a"] := by
  have names : "a".splitOn "/" = ["a"] := by
    rw [String.splitOn, if_neg (by decide), String.splitOnAux, if_neg (by decide),
      if_neg (by decide), String.splitOnAux, if_pos (by decide)]
    rfl
  have path : Log.Path.ofText Log.FileSystem.usual.seen.working "a" =
      ⟨["tmp", "work", "a"], false⟩ := by
    have relative : "a".startsWith "/" = false := by decide +kernel
    have single : "a".startsWith "//" = false := by decide +kernel
    rw [Log.Path.ofText, names, relative, single]
    rfl
  have plain : "a".contains '\x00' = false := by simp
  simp only [Log.FileSystem.place?, plain, path]
  decide +kernel

theorem configure_equipped :
    Hub.start.seen.configure .verbose (some (.text "a")) = (equipped, none) := by
  have bare : Hub.uninstall { Hub.start.seen with level := .verbose, configured := true } =
      ({ Hub.start.seen with level := .verbose, configured := true }, none) := rfl
  rw [Hub.configure, bare]
  change Hub.equip _ _ = _
  rw [Hub.equip]
  split
  next place found =>
    cases place?_a.symm.trans found
    rfl
  next cause refused => cases place?_a.symm.trans refused

theorem steps_accounted_interleaved :
    (steps .start interleaved).map (·.2.handlers) =
      [[.null, .console 0, .file 1 ["tmp", "work", "a"]],
        [.null, .console 0, .file 1 ["tmp", "work", "a"], .application 1],
        [.null, .console 0, .file 1 ["tmp", "work", "a"], .application 1, .application 2],
        [.null, .console 0, .file 1 ["tmp", "work", "a"], .application 1, .application 2],
        [.null, .application 1, .application 2],
        [.null, .application 1, .application 2],
        [.null, .application 1, .application 2],
        [.null, .application 2],
        [.null, .application 2, .application 1]] ∧
      ledger interleaved = [2, 1] ∧ lastLevel? interleaved = some .silent ∧
      ∃ result h, (steps .start interleaved)[8]? = some (result, h) ∧ Accounted interleaved h := by
  have run : steps .start interleaved =
      (.ok .done, equipped) :: steps equipped interleaved.tail := by
    rw [interleaved, steps, step, configure_equipped]
    rfl
  refine ⟨by rw [run]; decide +kernel, by decide, by decide, ?_⟩
  have last : ∃ r, (steps equipped interleaved.tail)[7]? = some r := ⟨_, rfl⟩
  obtain ⟨⟨result, h⟩, at_8⟩ := last
  have at_8 : (steps .start interleaved)[8]? = some (result, h) := by rw [run]; exact at_8
  exact ⟨result, h, at_8, (steps_accounted .start interleaved).2 8 result h at_8⟩

end Session
end ReversePolish
