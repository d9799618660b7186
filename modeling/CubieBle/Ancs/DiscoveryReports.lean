import Mathlib.Data.List.Nodup
import CubieBle.Ancs.Discovery

/-! # What discovery reports

A characteristic that the peer does not have keeps the handles of an earlier peer, and the
descriptors are asked for only behind a notification source. So the handles are those of the
peer exactly if what was left from earlier connections does no harm.
-/

namespace CubieBle.Ancs.Discovery

open Machine

/-! ## Peers -/

def AttrKind.endHandle : AttrKind → Nat
  | .primary _ endHandle => endHandle
  | _ => 0

/-- The declaration of the ANCS service. -/
def ancsService (peer : List Attr) : Option Attr :=
  peer.find? fun attr => (DiscoverType.primary ancsServiceUuid).reports attr.kind

/-- The declarations of characteristics in the ANCS service. -/
def ancsChars (peer : List Attr) : List Attr :=
  match ancsService peer with
  | some attr => reported peer .characteristic attr.handle attr.kind.endHandle
  | none => []

/-- The handle of a characteristic of the ANCS service. -/
def offered (peer : List Attr) (index : Nat) : Option Nat :=
  ((ancsChars peer).find? fun attr => attr.kind = .characteristic (charUuid index)).map Attr.handle

def offeredStart (peer : List Attr) (index : Nat) : Nat :=
  (offered peer index).getD invalidAttHandle

/-- The handle of its CCC, behind the value. -/
def offeredCcd (peer : List Attr) (index : Nat) : Nat :=
  match offered peer index with
  | some handle => if ⟨handle + 2, .ccc⟩ ∈ peer then handle + 2 else invalidAttHandle
  | none => invalidAttHandle

structure WellFormed (peer : List Attr) : Prop where
  ordered : peer.Pairwise fun first second => first.handle < second.handle
  handles : ∀ attr ∈ peer, 0 < attr.handle ∧ attr.handle ≤ 0xffff
  service : ∀ first ∈ peer, ∀ second ∈ peer,
    (DiscoverType.primary ancsServiceUuid).reports first.kind →
    (DiscoverType.primary ancsServiceUuid).reports second.kind → first = second
  serviceEnd : ∀ attr ∈ peer, (DiscoverType.primary ancsServiceUuid).reports attr.kind →
    attr.handle ≤ attr.kind.endHandle ∧ attr.kind.endHandle ≤ 0xffff
  chars : ∀ index < numChars, ∀ first ∈ ancsChars peer, ∀ second ∈ ancsChars peer,
    first.kind = .characteristic (charUuid index) →
    second.kind = .characteristic (charUuid index) → first = second
  /-- Every CCC is directly behind a value. -/
  ccc : ∀ attr ∈ peer, attr.kind = .ccc →
    ∃ chrc ∈ peer, DiscoverType.characteristic.reports chrc.kind ∧ attr.handle = chrc.handle + 2
  /-- The sources of notifications have one. -/
  notifies : ∀ index < numChars, hasCcd index = true → ∀ attr ∈ ancsChars peer,
    attr.kind = .characteristic (charUuid index) → ⟨attr.handle + 2, .ccc⟩ ∈ peer

/-! ## What is reported at most once -/

theorem filter_of_unique {p : Attr → Bool} :
    ∀ {attrs : List Attr}, attrs.Pairwise (fun first second => first.handle < second.handle) →
      (∀ first ∈ attrs, ∀ second ∈ attrs, p first → p second → first = second) →
      attrs.filter p = (attrs.find? p).toList
  | [], _, _ => rfl
  | attr :: rest, hordered, hunique => by
      obtain ⟨hfirst, hrest⟩ := List.pairwise_cons.mp hordered
      cases hp : p attr with
      | false =>
          rw [List.filter_cons_of_neg (by simp [hp]), List.find?_cons_of_neg (by simp [hp])]
          exact filter_of_unique hrest fun first hf second hs =>
            hunique first (List.mem_cons_of_mem _ hf) second (List.mem_cons_of_mem _ hs)
      | true =>
          have hnone : rest.filter p = [] := by
            rw [List.filter_eq_nil_iff]
            intro other hother hpother
            have hsame := hunique attr List.mem_cons_self other (List.mem_cons_of_mem _ hother) hp
              hpother
            have hlt := hfirst other hother
            rw [hsame] at hlt
            exact Nat.lt_irrefl _ hlt
          rw [List.filter_cons_of_pos hp, List.find?_cons_of_pos hp, hnone]
          rfl

theorem WellFormed.reported_primary {peer : List Attr} (hpeer : WellFormed peer) :
    reported peer (.primary ancsServiceUuid) 0x0001 0xffff = (ancsService peer).toList := by
  rw [ancsService, ← filter_of_unique hpeer.ordered hpeer.service, reported]
  apply List.filter_congr
  intro attr hattr
  obtain ⟨hpos, hmax⟩ := hpeer.handles attr hattr
  simp only [Nat.succ_le_of_lt hpos, hmax, true_and, Bool.decide_eq_true]

theorem WellFormed.eq_of_handle_eq {peer : List Attr} (hpeer : WellFormed peer)
    {first second : Attr}
    (hfirst : first ∈ peer) (hsecond : second ∈ peer) (heq : first.handle = second.handle) :
    first = second := by
  have hnodup : (peer.map Attr.handle).Nodup := by
    rw [List.Nodup, List.pairwise_map]
    exact hpeer.ordered.imp fun hlt => Nat.ne_of_lt hlt
  exact List.inj_on_of_nodup_map hnodup hfirst hsecond heq

/-- At most one attribute has the handle that is asked for. -/
theorem WellFormed.reported_descriptor {peer : List Attr} (hpeer : WellFormed peer)
    (handle : Nat) :
    reported peer .descriptor handle handle = [] ∧ ⟨handle, .ccc⟩ ∉ peer ∨
      ∃ attr, reported peer .descriptor handle handle = [attr] ∧ attr.handle = handle ∧
        (attr.kind = .ccc ∨ attr.kind = .descriptor) ∧
        (⟨handle, .ccc⟩ ∈ peer ↔ attr.kind = .ccc) := by
  have hfilter : reported peer .descriptor handle handle = _ :=
    filter_of_unique hpeer.ordered fun first hfirst second hsecond hpfirst hpsecond =>
      hpeer.eq_of_handle_eq hfirst hsecond (by
        simp only [decide_eq_true_eq] at hpfirst hpsecond
        omega)
  cases hfind : peer.find? fun attr => decide
      (handle ≤ attr.handle ∧ attr.handle ≤ handle ∧ DiscoverType.descriptor.reports attr.kind) with
  | none =>
      left
      rw [hfind] at hfilter
      refine ⟨hfilter, fun hmem => ?_⟩
      have hnone := List.find?_eq_none.mp hfind _ hmem
      simp [DiscoverType.reports] at hnone
  | some attr =>
      right
      rw [hfind] at hfilter
      have hmem := List.mem_of_find?_eq_some hfind
      have hattr := List.find?_some hfind
      simp only [decide_eq_true_eq] at hattr
      obtain ⟨hle, hge, hreports⟩ := hattr
      have hhandle : attr.handle = handle := Nat.le_antisymm hge hle
      refine ⟨attr, hfilter, hhandle, ?_, ?_⟩
      · cases hkind : attr.kind with
        | ccc => exact .inl rfl
        | descriptor => exact .inr rfl
        | _ =>
            rw [hkind] at hreports
            exact absurd hreports (by simp [DiscoverType.reports])
      · constructor
        · intro hccc
          rw [hpeer.eq_of_handle_eq hmem hccc hhandle]
        · intro hkind
          rw [← hhandle, ← hkind]
          exact hmem

/-! ## Characteristics -/

/-- The index of the last characteristic is one of `char_data`, if there was one. -/
def GattService.IndexOk (service : GattService) : Prop :=
  service.charIndex = 0xffff ∨ service.charIndex < numChars

/-- What declarations change: start handles, and what is not used afterwards. -/
structure Declared (attrs : List Attr) (before after : GattService) : Prop where
  startHandle : after.startHandle = before.startHandle
  endHandle : after.endHandle = before.endHandle
  indexOk : after.IndexOk
  starts : ∀ index < numChars, (after.charData index).startHandle =
    ((attrs.find? fun attr => attr.kind = .characteristic (charUuid index)).map Attr.handle).getD
      (before.charData index).startHandle
  ccds : ∀ index, (after.charData index).ccdHandle = (before.charData index).ccdHandle

theorem find?_charUuid : ∀ index < numChars,
    (List.range numChars).find? (fun other => charUuid other = charUuid index) = some index := by
  decide

theorem charUuid_injective : ∀ first < numChars, ∀ second < numChars,
    charUuid first = charUuid second → first = second := by
  decide

theorem GattService.modify_of_lt {service : GattService} {index : Nat} (hindex : index < numChars)
    (f : GattCharacteristic → GattCharacteristic) :
    service.modify index f = some { service with
      charData := Function.update service.charData index (f (service.charData index)) } :=
  if_pos hindex

/-- A declaration of one of the characteristics. -/
theorem declared_of_index {app : App} (hok : app.service.IndexOk) {index : Nat}
    (hindex : index < numChars) (handle : Nat) :
    ∃ service, handleGattServiceCharacteristicDeclarationInfoInd app (charUuid index) handle =
        some (app.withService service) ∧
      Declared [⟨handle, .characteristic (charUuid index)⟩] app.service service := by
  have hstart : ∀ other < numChars,
      (([⟨handle, .characteristic (charUuid index)⟩] : List Attr).find?
        fun attr => attr.kind = .characteristic (charUuid other)).map Attr.handle =
      if other = index then some handle else none := by
    intro other hother
    by_cases hsame : other = index
    · simp [hsame]
    · have hne : charUuid index ≠ charUuid other := fun huuid =>
        hsame (charUuid_injective index hindex other hother huuid).symm
      simp [hsame, hne]
  simp only [handleGattServiceCharacteristicDeclarationInfoInd, find?_charUuid index hindex,
    GattService.modify_of_lt hindex, Option.bind_eq_bind, Option.bind_some]
  by_cases hlast : app.service.charIndex = 0xffff
  · rw [if_neg (not_not.mpr hlast)]
    refine ⟨_, rfl, rfl, rfl, .inr hindex, ?_, ?_⟩
    · intro other hother
      rw [hstart other hother]
      by_cases hsame : other = index <;> simp [hsame]
    · intro other
      by_cases hsame : other = index <;> simp [hsame]
  · have hlt : app.service.charIndex < numChars := hok.resolve_left hlast
    rw [if_pos hlast, GattService.modify_of_lt hlt]
    refine ⟨_, rfl, rfl, rfl, .inr hindex, ?_, ?_⟩
    · intro other hother
      rw [hstart other hother]
      by_cases hsame : other = index <;> by_cases hold : other = app.service.charIndex <;>
        simp_all [Function.update_apply]
    · intro other
      by_cases hsame : other = index <;> by_cases hold : other = app.service.charIndex <;>
        simp_all [Function.update_apply]

theorem declared_step (app : App) (hok : app.service.IndexOk) (uuid : Uuid) (handle : Nat) :
    ∃ service, handleGattServiceCharacteristicDeclarationInfoInd app uuid handle =
        some (app.withService service) ∧
      Declared [⟨handle, .characteristic uuid⟩] app.service service := by
  by_cases hknown : ∃ index < numChars, charUuid index = uuid
  · obtain ⟨index, hindex, rfl⟩ := hknown
    exact declared_of_index hok hindex handle
  · have hnone : (List.range numChars).find? (fun index => charUuid index = uuid) = none := by
      rw [List.find?_eq_none]
      intro index hindex huuid
      exact hknown ⟨index, List.mem_range.mp hindex, by simpa using huuid⟩
    refine ⟨app.service, ?_, rfl, rfl, hok, ?_, fun _ => rfl⟩
    · simp only [handleGattServiceCharacteristicDeclarationInfoInd, hnone]
      rfl
    · intro index hindex
      have hne : uuid ≠ charUuid index := fun huuid => hknown ⟨index, hindex, huuid.symm⟩
      simp [hne]

/-- Declarations one after the other, none of them of a characteristic of the first one. -/
theorem Declared.cons {attr : Attr} {rest : List Attr} {before middle after : GattService}
    (hfirst : Declared [attr] before middle) (hrest : Declared rest middle after)
    (hunique : ∀ index < numChars, attr.kind = .characteristic (charUuid index) →
      ∀ other ∈ rest, other.kind ≠ .characteristic (charUuid index)) :
    Declared (attr :: rest) before after where
  startHandle := hrest.startHandle.trans hfirst.startHandle
  endHandle := hrest.endHandle.trans hfirst.endHandle
  indexOk := hrest.indexOk
  starts := by
    intro index hindex
    rw [hrest.starts index hindex, hfirst.starts index hindex]
    by_cases hkind : attr.kind = .characteristic (charUuid index)
    · have hnone : rest.find? (fun other => other.kind = .characteristic (charUuid index)) =
          none := by
        rw [List.find?_eq_none]
        intro other hother
        simpa using hunique index hindex hkind other hother
      rw [hnone, List.find?_cons_of_pos (by simp [hkind]), List.find?_cons_of_pos (by simp [hkind])]
      rfl
    · rw [List.find?_cons_of_neg (by simp [hkind]), List.find?_cons_of_neg (by simp [hkind])]
      rfl
  ccds index := (hrest.ccds index).trans (hfirst.ccds index)

theorem foldlM_declared (attrs : List Attr)
    (hordered : attrs.Pairwise fun first second => first.handle < second.handle)
    (hkinds : ∀ attr ∈ attrs, ∃ uuid, attr.kind = .characteristic uuid)
    (hunique : ∀ index < numChars, ∀ first ∈ attrs, ∀ second ∈ attrs,
      first.kind = .characteristic (charUuid index) →
      second.kind = .characteristic (charUuid index) → first = second)
    (app : App) (hok : app.service.IndexOk) :
    ∃ service, attrs.foldlM discoverFunc app = some
        { app.withService service with chrcIsFound := app.chrcIsFound || !attrs.isEmpty } ∧
      Declared attrs app.service service := by
  induction attrs generalizing app with
  | nil =>
      refine ⟨app.service, ?_, rfl, rfl, hok, fun _ _ => rfl, fun _ => rfl⟩
      simp [App.withService]
  | cons attr rest ih =>
      obtain ⟨hlt, hrest⟩ := List.pairwise_cons.mp hordered
      obtain ⟨uuid, hkind⟩ := hkinds attr List.mem_cons_self
      obtain ⟨middle, hstep, hfirst⟩ :=
        declared_step { app with chrcIsFound := true } hok uuid attr.handle
      have hattr : (⟨attr.handle, .characteristic uuid⟩ : Attr) = attr := by rw [← hkind]
      rw [hattr] at hfirst
      have hothers : ∀ index < numChars, attr.kind = .characteristic (charUuid index) →
          ∀ other ∈ rest, other.kind ≠ .characteristic (charUuid index) := by
        intro index hindex hfirstKind other hother hotherKind
        have hsame := hunique index hindex attr List.mem_cons_self other
          (List.mem_cons_of_mem _ hother) hfirstKind hotherKind
        have hhandle := hlt other hother
        rw [hsame] at hhandle
        exact Nat.lt_irrefl _ hhandle
      obtain ⟨service, hfold, hdeclared⟩ := ih hrest
        (fun other hother => hkinds other (List.mem_cons_of_mem _ hother))
        (fun index hindex first hf second hs => hunique index hindex first
          (List.mem_cons_of_mem _ hf) second (List.mem_cons_of_mem _ hs))
        (App.withService { app with chrcIsFound := true } middle) hfirst.indexOk
      refine ⟨service, ?_, hfirst.cons hdeclared hothers⟩
      have hdiscover : discoverFunc app attr =
          some (App.withService { app with chrcIsFound := true } middle) := by
        simp only [discoverFunc, hkind, hstep]
      rw [List.foldlM_cons, hdiscover, Option.bind_eq_bind, Option.bind_some, hfold]
      simp [App.withService]

/-! ## Requests -/

/-- Nothing is found yet, and nothing is subscribed. -/
structure Quiet (app : App) : Prop where
  serviceIsFound : app.serviceIsFound = false
  chrcIsFound : app.chrcIsFound = false
  chrcDecIsFound : app.chrcDecIsFound = false
  notifConfiguring : app.notifConfiguring = false

/-- A step that ends with a message and is not the last one. -/
structure Sends (before after : App) (msg : Msg) : Prop where
  quiet : Quiet after
  queue : after.queue = before.queue ++ [msg]
  completed : after.completed = before.completed
  subscribed : after.subscribed = before.subscribed

/-- What a request sends is said of the application before its service was changed. -/
theorem Sends.of_withService {before after : App} {service : GattService} {msg : Msg}
    (hsends : Sends (before.withService service) after msg) : Sends before after msg :=
  ⟨hsends.quiet, hsends.queue, hsends.completed, hsends.subscribed⟩

theorem sends_stop {app : App} (hquiet : Quiet app) :
    Sends app (stopGattDatabaseDiscovery app) (.discoveryCompelte app.discoveryResult) :=
  ⟨⟨hquiet.1, hquiet.2, hquiet.3, hquiet.4⟩, rfl, rfl, rfl⟩

section Requests

variable {peer : List Attr} (hpeer : WellFormed peer) {app : App} (hquiet : Quiet app)
include hpeer hquiet

/-- The request for the service. -/
theorem discoverAPrimaryService_spec :
    ∃ after, discoverAPrimaryService peer app = some after ∧
      Sends app after (.discPrimServ (statusOf (ancsService peer).isSome)) ∧
      after.service =
        match ancsService peer with
        | some attr => { app.service with
            startHandle := attr.handle
            endHandle := attr.kind.endHandle
            charIndex := 0 }
        | none => app.service := by
  rw [discoverAPrimaryService, btGattDiscover, hpeer.reported_primary]
  cases hservice : ancsService peer with
  | none =>
      refine ⟨_, rfl, ⟨⟨rfl, hquiet.2, hquiet.3, hquiet.4⟩, ?_, rfl, rfl⟩, rfl⟩
      simp [discoverFuncNull, App.send, hquiet.serviceIsFound]
  | some attr =>
      have hreports := List.find?_some hservice
      cases hkind : attr.kind with
      | primary uuid endHandle =>
          have hdiscover : discoverFunc app attr = some (handleDiscoverPrimaryServiceInd
              { app with serviceIsFound := true } attr.handle endHandle) := by
            simp only [discoverFunc, hkind]
          simp only [Option.toList_some, List.foldlM_cons, List.foldlM_nil, hdiscover,
            Option.bind_eq_bind, Option.bind_some, Option.pure_def]
          refine ⟨_, rfl, ⟨⟨rfl, hquiet.2, hquiet.3, hquiet.4⟩, rfl, rfl, rfl⟩, ?_⟩
          simp only [hkind]
          rfl
      | _ =>
          rw [hkind] at hreports
          exact absurd hreports (by simp [DiscoverType.reports])

/-- The request for the characteristics of the service. -/
theorem btGattDiscover_characteristic {attr : Attr} (hservice : ancsService peer = some attr)
    (hok : app.service.IndexOk) :
    ∃ after, btGattDiscover peer .characteristic attr.handle attr.kind.endHandle app = some after ∧
      Sends app after (.discServiceChar (statusOf (!(ancsChars peer).isEmpty))) ∧
      Declared (ancsChars peer) app.service after.service := by
  have hchars : reported peer .characteristic attr.handle attr.kind.endHandle = ancsChars peer := by
    rw [ancsChars, hservice]
  have hordered : (ancsChars peer).Pairwise fun first second => first.handle < second.handle := by
    rw [← hchars]
    exact hpeer.ordered.filter _
  have hkinds : ∀ chrc ∈ ancsChars peer, ∃ uuid, chrc.kind = .characteristic uuid := by
    intro chrc hchrc
    rw [← hchars, reported, List.mem_filter] at hchrc
    have hreports := hchrc.2
    simp only [decide_eq_true_eq] at hreports
    cases hkind : chrc.kind with
    | characteristic uuid => exact ⟨uuid, rfl⟩
    | _ =>
        rw [hkind] at hreports
        exact absurd hreports.2.2 (by simp [DiscoverType.reports])
  obtain ⟨service, hfold, hdeclared⟩ :=
    foldlM_declared (ancsChars peer) hordered hkinds hpeer.chars app hok
  rw [btGattDiscover, hchars, hfold]
  refine ⟨_, rfl, ⟨⟨hquiet.1, rfl, hquiet.3, hquiet.4⟩, ?_, rfl, rfl⟩, hdeclared⟩
  simp [discoverFuncNull, App.send, App.withService, hquiet.chrcIsFound]

/-- What the request for descriptors changes: the CCC of one characteristic, if there is one. -/
structure Described (peer : List Attr) (handle : Nat) (before after : GattService) : Prop where
  charIndex : after.charIndex = before.charIndex
  starts : ∀ index, (after.charData index).startHandle = (before.charData index).startHandle
  ccd : (after.charData before.charIndex).ccdHandle =
    if ⟨handle, .ccc⟩ ∈ peer then handle else (before.charData before.charIndex).ccdHandle
  others : ∀ index, index ≠ before.charIndex →
    (after.charData index).ccdHandle = (before.charData index).ccdHandle

theorem btGattDiscover_descriptor (handle : Nat) (hindex : app.service.charIndex < numChars) :
    ∃ after found, btGattDiscover peer .descriptor handle handle app = some after ∧
      Sends app after (.discServiceCharDesc (statusOf found)) ∧
      (⟨handle, .ccc⟩ ∈ peer → found = true) ∧ Described peer handle app.service after.service := by
  rw [btGattDiscover]
  rcases hpeer.reported_descriptor handle with ⟨hnone, hccc⟩ | ⟨attr, hone, hhandle, hkind, hccc⟩
  · rw [hnone]
    refine ⟨_, false, rfl, ⟨⟨hquiet.1, hquiet.2, rfl, hquiet.4⟩, ?_, rfl, rfl⟩,
      fun h => absurd h hccc, rfl, fun _ => rfl, ?_, fun _ _ => rfl⟩
    · simp [discoverFuncNull, App.send, hquiet.chrcDecIsFound]
    · rw [if_neg hccc]
      rfl
  · rw [hone]
    rcases hkind with hkind | hkind
    · have hdiscover : discoverFunc app attr = some (App.withService
          { app with chrcDecIsFound := true }
          { app.service with
            charData := Function.update app.service.charData app.service.charIndex
              { app.service.charData app.service.charIndex with ccdHandle := attr.handle } }) := by
        simp only [discoverFunc, hkind, handleGattCharacteristicDescriptorInfoInd, if_true,
          GattService.modify_of_lt hindex, Option.bind_eq_bind, Option.bind_some, Option.pure_def]
      simp only [List.foldlM_cons, List.foldlM_nil, hdiscover, Option.bind_eq_bind,
        Option.bind_some, Option.pure_def]
      refine ⟨_, true, rfl, ⟨⟨hquiet.1, hquiet.2, rfl, hquiet.4⟩, rfl, rfl, rfl⟩, fun _ => rfl, rfl,
        ?_, ?_, ?_⟩
      · intro index
        by_cases hsame : index = app.service.charIndex <;>
          simp [discoverFuncNull, App.send, App.withService, hsame]
      · rw [if_pos (hccc.mpr hkind), ← hhandle]
        simp [discoverFuncNull, App.send, App.withService]
      · intro index hne
        simp [discoverFuncNull, App.send, App.withService, hne]
    · have hdiscover : discoverFunc app attr = some { app with chrcDecIsFound := true } := by
        simp [discoverFunc, hkind, handleGattCharacteristicDescriptorInfoInd]
      have hnoccc : (⟨handle, .ccc⟩ : Attr) ∉ peer := by
        rw [hccc, hkind]
        decide
      simp only [List.foldlM_cons, List.foldlM_nil, hdiscover, Option.bind_eq_bind,
        Option.bind_some, Option.pure_def]
      refine ⟨_, true, rfl, ⟨⟨hquiet.1, hquiet.2, rfl, hquiet.4⟩, rfl, rfl, rfl⟩, fun _ => rfl, rfl,
        fun _ => rfl, ?_, fun _ _ => rfl⟩
      rw [if_neg hnoccc]
      rfl

end Requests

/-! ## The main loop -/

/-- What is subscribed when discovery is complete. -/
def subscribedFor (service : GattService) : List (Nat × Nat) :=
  if (service.charData 0).ccdHandle ≠ invalidAttHandle then subscriptions service else []

/-- The main loop comes to one `BLE_DISCOVERY_COMPELTE_IND`, with these handles, and then to the
end of its messages. -/
structure Ends (before after : App) (result : GattService) : Prop where
  queue : after.queue = []
  serviceIsFound : after.serviceIsFound = false
  chrcIsFound : after.chrcIsFound = false
  chrcDecIsFound : after.chrcDecIsFound = false
  service : after.service = result
  completed : after.completed = before.completed ++ [result]
  subscribed : after.subscribed = before.subscribed ++ subscribedFor result

def Completes (peer : List Attr) (count : Nat) (app : App) (service : GattService) : Prop :=
  ∃ after, mainLoop peer count app = some after ∧ Ends app after service

section Loop

variable {peer : List Attr} {app : App}

theorem mainLoop_of_empty (count : Nat) (hempty : app.queue = []) :
    mainLoop peer count app = some app := by
  cases count with
  | zero => rfl
  | succ count => rw [mainLoop, hempty]

theorem mainLoop_of_queue {after : App} {msg : Msg} (count : Nat) (hqueue : app.queue = [msg])
    (hstep : appBleEventHandle peer { app with queue := [] } msg = some after) :
    mainLoop peer (count + 1) app = mainLoop peer count after := by
  rw [mainLoop, hqueue]
  dsimp only
  rw [hstep, Option.bind_eq_bind, Option.bind_some]

theorem Completes.step {after : App} {msg next : Msg} {count : Nat} {service : GattService}
    (hrest : Completes peer count after service) (hqueue : app.queue = [msg])
    (hstep : appBleEventHandle peer { app with queue := [] } msg = some after)
    (hsends : Sends { app with queue := [] } after next) :
    Completes peer (count + 1) app service := by
  obtain ⟨last, hloop, hends⟩ := hrest
  refine ⟨last, ?_, hends.1, hends.2, hends.3, hends.4, hends.5, ?_, ?_⟩
  · rw [mainLoop_of_queue count hqueue hstep, hloop]
  · rw [hends.completed, hsends.completed]
  · rw [hends.subscribed, hsends.subscribed]

theorem completes_compelte (count : Nat) (hquiet : Quiet app) {result : Bool}
    (hqueue : app.queue = [.discoveryCompelte result]) :
    Completes peer (count + 1) app app.service := by
  refine ⟨handleDiscoveryCompelte { app with queue := [] }, ?_, ?_⟩
  · rw [mainLoop_of_queue count hqueue rfl]
    apply mainLoop_of_empty
    rw [handleDiscoveryCompelte]
    dsimp only
    split <;> rfl
  · simp only [handleDiscoveryCompelte, hquiet.notifConfiguring, and_true]
    by_cases hccd : (app.service.charData 0).ccdHandle ≠ invalidAttHandle
    · rw [if_pos hccd]
      exact ⟨rfl, hquiet.1, hquiet.2, hquiet.3, rfl, rfl, by rw [subscribedFor, if_pos hccd]⟩
    · rw [if_neg hccd]
      refine ⟨rfl, hquiet.1, hquiet.2, hquiet.3, rfl, rfl, ?_⟩
      rw [subscribedFor, if_neg hccd, List.append_nil]

/-- A message on which discovery stops. -/
theorem completes_of_stop (stopping : App) {msg : Msg} (count : Nat) (hqueue : app.queue = [msg])
    (hstep : appBleEventHandle peer { app with queue := [] } msg =
      some (stopGattDatabaseDiscovery stopping))
    (hquiet : Quiet stopping) (hempty : stopping.queue = [])
    (hcompleted : stopping.completed = app.completed)
    (hsubscribed : stopping.subscribed = app.subscribed) :
    Completes peer (count + 2) app stopping.service := by
  have hsends : Sends { app with queue := [] } (stopGattDatabaseDiscovery stopping)
      (.discoveryCompelte stopping.discoveryResult) := by
    refine ⟨(sends_stop hquiet).quiet, ?_, hcompleted, hsubscribed⟩
    rw [(sends_stop hquiet).queue, hempty]
  exact (completes_compelte count hsends.quiet hsends.queue).step hqueue hstep hsends

theorem nextService_eq (app : App) : nextService peer app =
    some (stopGattDatabaseDiscovery { app with serviceIndex := app.serviceIndex + 1 }) := by
  rw [nextService]
  exact if_neg (by simp)

/-- What the requests for descriptors make of the handles: nothing, unless they are made, and
the CCC of the data source only behind that of the notification source. -/
structure Searched (peer : List Attr) (asked : Prop) (before after : GattService) : Prop where
  starts : ∀ index, (after.charData index).startHandle = (before.charData index).startHandle
  controlPoint : (after.charData 1).ccdHandle = (before.charData 1).ccdHandle
  skipped : ¬ asked → ∀ index, (after.charData index).ccdHandle = (before.charData index).ccdHandle
  notification : asked → ⟨((before.charData 0).startHandle + 2) % 0x10000, .ccc⟩ ∈ peer →
    (after.charData 0).ccdHandle = ((before.charData 0).startHandle + 2) % 0x10000
  dataSource : asked → ⟨((before.charData 0).startHandle + 2) % 0x10000, .ccc⟩ ∈ peer →
    (after.charData 2).ccdHandle =
      if ⟨((before.charData 2).startHandle + 2) % 0x10000, .ccc⟩ ∈ peer then
        ((before.charData 2).startHandle + 2) % 0x10000
      else (before.charData 2).ccdHandle

section Descriptors

variable (hquiet : Quiet app)
include hquiet

theorem quiet_of_fields {other : App} (hservice : other.serviceIsFound = app.serviceIsFound)
    (hchrc : other.chrcIsFound = app.chrcIsFound)
    (hdec : other.chrcDecIsFound = app.chrcDecIsFound)
    (hnotif : other.notifConfiguring = app.notifConfiguring) : Quiet other :=
  ⟨hservice.trans hquiet.1, hchrc.trans hquiet.2, hdec.trans hquiet.3, hnotif.trans hquiet.4⟩

/-- The answer for the data source is the last one. -/
theorem completes_dataSource (count : Nat) {status : Nat}
    (hqueue : app.queue = [.discServiceCharDesc status]) (hindex : app.service.charIndex = 2) :
    Completes peer (count + 2) app app.service := by
  by_cases hstatus : status = 0
  · refine completes_of_stop { app with queue := [], serviceIndex := app.serviceIndex + 1 } count
      hqueue ?_ (quiet_of_fields hquiet rfl rfl rfl rfl) rfl rfl rfl
    have hnone : ((List.range numChars).find? fun index =>
        (app.service.charIndex + 1) % 0x10000 ≤ index ∧ hasCcd index) = none := by
      rw [hindex]
      decide
    simp only [appBleEventHandle, handleGattCharacteristicDescriptorCfm, if_pos hstatus, hnone,
      nextService_eq]
  · refine completes_of_stop { app with queue := [], discoveryResult := false } count hqueue ?_
      (quiet_of_fields hquiet rfl rfl rfl rfl) rfl rfl rfl
    simp only [appBleEventHandle, handleGattCharacteristicDescriptorCfm, if_neg hstatus]

/-- The answer for the notification source. -/
theorem completes_notification (hpeer : WellFormed peer) (count : Nat) {found : Bool}
    (hqueue : app.queue = [.discServiceCharDesc (statusOf found)])
    (hindex : app.service.charIndex = 0) :
    ∃ service, Completes peer (count + 3) app service ∧
      (∀ index, (service.charData index).startHandle = (app.service.charData index).startHandle) ∧
      (∀ index < 2, (service.charData index).ccdHandle = (app.service.charData index).ccdHandle) ∧
      (found = true → (service.charData 2).ccdHandle =
        if ⟨((app.service.charData 2).startHandle + 2) % 0x10000, .ccc⟩ ∈ peer then
          ((app.service.charData 2).startHandle + 2) % 0x10000
        else (app.service.charData 2).ccdHandle) := by
  cases found with
  | false =>
      refine ⟨app.service, ?_, fun _ => rfl, fun _ _ => rfl, nofun⟩
      refine completes_of_stop { app with queue := [], discoveryResult := false } (count + 1) hqueue
        ?_ (quiet_of_fields hquiet rfl rfl rfl rfl) rfl rfl rfl
      simp [appBleEventHandle, handleGattCharacteristicDescriptorCfm, statusOf]
  | true =>
      have hnext : ((List.range numChars).find? fun index =>
          (app.service.charIndex + 1) % 0x10000 ≤ index ∧ hasCcd index) = some 2 := by
        rw [hindex]
        decide
      have hasking : Quiet (App.withService { app with queue := [] }
          { app.service with charIndex := 2 }) := quiet_of_fields hquiet rfl rfl rfl rfl
      obtain ⟨after, found, hdiscover, hsends, -, hdescribed⟩ :=
        btGattDiscover_descriptor hpeer hasking
          (((app.service.charData 2).startHandle + 2) % 0x10000)
          (show (2 : Nat) < numChars by decide)
      have hstep : appBleEventHandle peer { app with queue := [] }
          (.discServiceCharDesc (statusOf true)) = some after := by
        simp only [appBleEventHandle, handleGattCharacteristicDescriptorCfm, statusOf, if_true,
          hnext]
        exact hdiscover
      refine ⟨after.service, ?_, hdescribed.starts, ?_, fun _ => hdescribed.ccd⟩
      · exact
          (completes_dataSource hsends.quiet count hsends.queue hdescribed.charIndex).step hqueue
          hstep hsends.of_withService
      · intro index hlt
        exact hdescribed.others index (Nat.ne_of_lt hlt)

omit hquiet in
/-- Descriptors are looked for from the notification source on. -/
theorem handleGattDiscoverServiceCharacteristicCfm_zero (app : App) :
    handleGattDiscoverServiceCharacteristicCfm peer app 0 =
      if (app.service.charData 0).startHandle ≠ invalidAttHandle then
        gattDiscoverAllCharDescriptors peer
          (app.withService { app.service with charIndex := 0 }) (app.service.charData 0)
      else nextService peer (app.withService { app.service with charIndex := 0 }) := by
  have hfirst : ((List.range numChars).find? fun index => hasCcd index) = some 0 := by
    decide
  have hchar : GattService.charAt { app.service with charIndex := 0 } 0 =
      some (app.service.charData 0) := by
    rw [GattService.charAt, if_pos (by decide)]
  simp only [handleGattDiscoverServiceCharacteristicCfm, hfirst, if_true, App.withService,
    Option.getD_some, hchar, Option.bind_eq_bind, Option.bind_some, Option.isSome_some, and_true]

/-- Without characteristics, or without one for the notification source, discovery stops. -/
theorem completes_chars_skipped (count : Nat) {found : Bool}
    (hqueue : app.queue = [.discServiceChar (statusOf found)])
    (hskipped : ¬ (found = true ∧ (app.service.charData 0).startHandle ≠ invalidAttHandle)) :
    Completes peer (count + 2) app { app.service with charIndex := 0 } := by
  refine completes_of_stop
    { app with
      queue := []
      service := { app.service with charIndex := 0 }
      discoveryResult := app.discoveryResult && found
      serviceIndex := app.serviceIndex + 1 }
    count hqueue ?_ (quiet_of_fields hquiet rfl rfl rfl rfl) rfl rfl rfl
  cases found with
  | false =>
      have hfirst : ((List.range numChars).find? fun index => hasCcd index) = some 0 := by
        decide
      simp only [appBleEventHandle, handleGattDiscoverServiceCharacteristicCfm, hfirst,
        statusOf, nextService_eq, Bool.and_false]
      rfl
  | true =>
      have hstart : ¬ (app.service.charData 0).startHandle ≠ invalidAttHandle := fun h =>
        hskipped ⟨rfl, h⟩
      show handleGattDiscoverServiceCharacteristicCfm peer { app with queue := [] } 0 = _
      rw [handleGattDiscoverServiceCharacteristicCfm_zero, if_neg hstart, nextService_eq,
        Bool.and_true]
      rfl

/-- With one, the descriptors follow. -/
theorem completes_chars_asked (hpeer : WellFormed peer) (count : Nat)
    (hqueue : app.queue = [.discServiceChar (statusOf true)])
    (hstart : (app.service.charData 0).startHandle ≠ invalidAttHandle) :
    ∃ service, Completes peer (count + 4) app service ∧
      ∀ asked : Prop, asked → Searched peer asked app.service service := by
  have hasking : Quiet (App.withService { app with queue := [] }
      { app.service with charIndex := 0 }) := quiet_of_fields hquiet rfl rfl rfl rfl
  obtain ⟨after, found, hdiscover, hsends, hfound, hdescribed⟩ :=
    btGattDiscover_descriptor hpeer hasking
      (((app.service.charData 0).startHandle + 2) % 0x10000)
      (show (0 : Nat) < numChars by decide)
  have hstep : appBleEventHandle peer { app with queue := [] }
      (.discServiceChar (statusOf true)) = some after := by
    show handleGattDiscoverServiceCharacteristicCfm peer { app with queue := [] } 0 = some after
    rw [handleGattDiscoverServiceCharacteristicCfm_zero, if_pos hstart]
    exact hdiscover
  obtain ⟨service, hcompletes, hstarts, hccds, hdata⟩ :=
    completes_notification hsends.quiet hpeer count hsends.queue hdescribed.charIndex
  refine ⟨service, hcompletes.step hqueue hstep hsends.of_withService, ?_⟩
  intro asked hasked
  refine ⟨?_, ?_, fun hskipped => absurd hasked hskipped, ?_, ?_⟩
  · intro index
    rw [hstarts index, hdescribed.starts index]
    rfl
  · rw [hccds 1 (by decide), hdescribed.others 1 (show (1 : Nat) ≠ 0 by decide)]
    rfl
  · intro _ hccc
    rw [hccds 0 (by decide)]
    exact hdescribed.ccd.trans (if_pos hccc)
  · intro _ hccc
    have hstart2 : (after.service.charData 2).startHandle =
        (app.service.charData 2).startHandle := hdescribed.starts 2
    have hccd2 : (after.service.charData 2).ccdHandle =
        (app.service.charData 2).ccdHandle := hdescribed.others 2 (show (2 : Nat) ≠ 0 by decide)
    rw [hdata (hfound hccc), hstart2, hccd2]

/-- The answer for the characteristics. -/
theorem completes_chars (hpeer : WellFormed peer) (count : Nat) {found : Bool}
    (hqueue : app.queue = [.discServiceChar (statusOf found)]) :
    ∃ service, Completes peer (count + 4) app service ∧
      Searched peer
        (found = true ∧ (app.service.charData 0).startHandle ≠ invalidAttHandle) app.service
        service := by
  by_cases hasked : found = true ∧ (app.service.charData 0).startHandle ≠ invalidAttHandle
  · obtain ⟨rfl, hstart⟩ := hasked
    obtain ⟨service, hcompletes, hsearched⟩ :=
      completes_chars_asked hquiet hpeer count hqueue hstart
    exact ⟨service, hcompletes, hsearched _ ⟨rfl, hstart⟩⟩
  · exact ⟨_, completes_chars_skipped hquiet (count + 2) hqueue hasked, fun _ => rfl, rfl,
      fun _ _ => rfl, fun h => absurd h hasked, fun h => absurd h hasked⟩

/-- Without the service, discovery stops at the first answer. -/
theorem completes_noService (count : Nat) (hqueue : app.queue = [.discPrimServ (statusOf false)]) :
    Completes peer (count + 2) app app.service := by
  refine completes_of_stop
    { app with
      queue := []
      discoveryResult := false
      serviceIndex := app.serviceIndex + 1 }
    count hqueue ?_ (quiet_of_fields hquiet rfl rfl rfl rfl) rfl rfl rfl
  simp only [appBleEventHandle, handleServiceDiscoveryPrimaryServiceByUuidCfm, statusOf,
    nextService_eq]
  rfl

end Descriptors

/-- What a connection makes of the handles. -/
structure Discovered (peer : List Attr) (before after : GattService) : Prop where
  starts : ∀ index < numChars, (after.charData index).startHandle =
    (offered peer index).getD (before.charData index).startHandle
  controlPoint : (after.charData 1).ccdHandle = (before.charData 1).ccdHandle
  skipped : ancsChars peer = [] ∨ (after.charData 0).startHandle = invalidAttHandle →
    ∀ index, (after.charData index).ccdHandle = (before.charData index).ccdHandle
  notification : ancsChars peer ≠ [] → (after.charData 0).startHandle ≠ invalidAttHandle →
    ⟨((after.charData 0).startHandle + 2) % 0x10000, .ccc⟩ ∈ peer →
    (after.charData 0).ccdHandle = ((after.charData 0).startHandle + 2) % 0x10000
  dataSource : ancsChars peer ≠ [] → (after.charData 0).startHandle ≠ invalidAttHandle →
    ⟨((after.charData 0).startHandle + 2) % 0x10000, .ccc⟩ ∈ peer →
    (after.charData 2).ccdHandle =
      if ⟨((after.charData 2).startHandle + 2) % 0x10000, .ccc⟩ ∈ peer then
        ((after.charData 2).startHandle + 2) % 0x10000
      else (before.charData 2).ccdHandle

/-- Declarations and then descriptors. -/
theorem Declared.discovered {before start middle after : GattService}
    (hdeclared : Declared (ancsChars peer) start middle) (hsame : start.charData = before.charData)
    (hsearched : Searched peer ((!(ancsChars peer).isEmpty) = true ∧
      (middle.charData 0).startHandle ≠ invalidAttHandle) middle after) :
    Discovered peer before after := by
  have hasked : ancsChars peer ≠ [] → (after.charData 0).startHandle ≠ invalidAttHandle →
      (!(ancsChars peer).isEmpty) = true ∧ (middle.charData 0).startHandle ≠ invalidAttHandle := by
    intro hchars hstart
    rw [hsearched.starts 0] at hstart
    exact ⟨by simpa using hchars, hstart⟩
  refine ⟨?_, ?_, ?_, ?_, ?_⟩
  · intro index hindex
    rw [hsearched.starts index, hdeclared.starts index hindex, offered, hsame]
  · rw [hsearched.controlPoint, hdeclared.ccds 1, hsame]
  · intro hskipped index
    rw [hsearched.skipped _ index, hdeclared.ccds index, hsame]
    rintro ⟨hchars, hstart⟩
    rcases hskipped with hnone | hinvalid
    · simp [hnone] at hchars
    · rw [hsearched.starts 0] at hinvalid
      exact hstart hinvalid
  · intro hchars hstart hccc
    rw [hsearched.starts 0] at hccc ⊢
    exact hsearched.notification (hasked hchars hstart) hccc
  · intro hchars hstart hccc
    rw [hsearched.starts 0] at hccc
    rw [hsearched.starts 2, hsearched.dataSource (hasked hchars hstart) hccc, hdeclared.ccds 2,
      hsame]

/-- The answer for the service. -/
theorem completes_service (hpeer : WellFormed peer) (hquiet : Quiet app) (count : Nat)
    {before : GattService}
    (hqueue : app.queue = [.discPrimServ (statusOf (ancsService peer).isSome)])
    (hservice : app.service =
      match ancsService peer with
      | some attr => { before with
          startHandle := attr.handle
          endHandle := attr.kind.endHandle
          charIndex := 0 }
      | none => before) :
    ∃ service, Completes peer (count + 5) app service ∧ Discovered peer before service := by
  cases hancs : ancsService peer with
  | none =>
      rw [hancs] at hservice hqueue
      have hnone : ancsChars peer = [] := by rw [ancsChars, hancs]
      refine ⟨app.service, completes_noService hquiet (count + 3) hqueue, ?_⟩
      rw [hservice]
      refine ⟨?_, rfl, fun _ _ => rfl, fun h => absurd hnone h, fun h => absurd hnone h⟩
      intro index _
      rw [offered, hnone]
      rfl
  | some attr =>
      rw [hancs] at hservice hqueue
      have hmem := List.mem_of_find?_eq_some hancs
      have hreports := List.find?_some hancs
      have hpos := (hpeer.handles attr hmem).1
      have hend := (hpeer.serviceEnd attr hmem hreports).1
      have hasking : Quiet (App.withService { app with queue := [] }
          { app.service with charIndex := 0xffff }) := quiet_of_fields hquiet rfl rfl rfl rfl
      obtain ⟨after, hdiscover, hsends, hdeclared⟩ :=
        btGattDiscover_characteristic hpeer hasking hancs (.inl rfl)
      have hstep : appBleEventHandle peer { app with queue := [] }
          (.discPrimServ (statusOf (some attr).isSome)) = some after := by
        have hvalid : app.service.startHandle ≠ invalidAttHandle ∧
            app.service.endHandle ≠ invalidAttHandle := by
          rw [hservice, invalidAttHandle]
          exact ⟨Nat.ne_of_gt hpos, Nat.ne_of_gt (Nat.lt_of_lt_of_le hpos hend)⟩
        show handleServiceDiscoveryPrimaryServiceByUuidCfm peer { app with queue := [] } 0 = _
        rw [handleServiceDiscoveryPrimaryServiceByUuidCfm, if_pos ⟨rfl, hvalid⟩]
        have hrange : app.service.startHandle = attr.handle ∧
            app.service.endHandle = attr.kind.endHandle := by
          rw [hservice]
          exact ⟨rfl, rfl⟩
        rw [hrange.1, hrange.2]
        exact hdiscover
      obtain ⟨service, hcompletes, hsearched⟩ :=
        completes_chars hsends.quiet hpeer count hsends.queue
      refine ⟨service, hcompletes.step hqueue hstep hsends.of_withService, ?_⟩
      have hsame : app.service.charData = before.charData := by rw [hservice]
      exact hdeclared.discovered hsame hsearched

end Loop

/-! ## Connections -/

/-- Between two connections. -/
structure AtRest (app : App) : Prop where
  quiet : Quiet app
  queue : app.queue = []

/-- A connection completes discovery once. -/
theorem connection_spec {peer : List Attr} (hpeer : WellFormed peer) {app : App}
    (hrest : AtRest app) :
    ∃ after service, connection app peer = some after ∧ AtRest after ∧
      after.service = service ∧ after.completed = [service] ∧
      after.subscribed = subscribedFor service ∧ Discovered peer app.service service := by
  have hquiet : Quiet { app with
      completed := []
      subscribed := []
      queue := []
      serviceIndex := 0
      isDiscovering := true
      discoveryResult := true } := quiet_of_fields hrest.quiet rfl rfl rfl rfl
  obtain ⟨found, hdiscover, hsends, hservice⟩ := discoverAPrimaryService_spec hpeer hquiet
  obtain ⟨service, hcompletes, hdiscovered⟩ :=
    completes_service hpeer hsends.quiet 0 hsends.queue hservice
  have hstarted : (App.send { app with completed := [], subscribed := [] } .connSecOpen).queue =
      [.connSecOpen] := by
    rw [App.send, hrest.queue]
    rfl
  obtain ⟨after, hloop, hends⟩ := hcompletes.step hstarted hdiscover
    ⟨hsends.quiet, hsends.queue, hsends.completed, hsends.subscribed⟩
  refine ⟨{ after with notifConfiguring := false }, service, ?_,
    ⟨⟨hends.serviceIsFound, hends.chrcIsFound, hends.chrcDecIsFound, rfl⟩, hends.queue⟩,
    hends.service, hends.completed, hends.subscribed, hdiscovered⟩
  rw [connection, hloop]
  rfl

structure Peer where
  attrs : List Attr
  wellFormed : WellFormed attrs

/-- The handles that a peer offers. -/
def Right (peer : Peer) (service : GattService) : Prop :=
  ∀ index < numChars, (service.charData index).startHandle = offeredStart peer.attrs index ∧
    (service.charData index).ccdHandle = offeredCcd peer.attrs index

/-- A subscription on what the peer offers. -/
def OnOffered (peer : Peer) (subscription : Nat × Nat) : Prop :=
  ∃ index < numChars, ∃ handle, offered peer.attrs index = some handle ∧
    ⟨handle + 2, .ccc⟩ ∈ peer.attrs ∧ subscription = (handle + 2, handle + 1)

/-- Discovery completes once, with the handles of the peer, and only those are subscribed. -/
def Reports (app : App) (peer : Peer) : Prop :=
  ∃ after, connection app peer.attrs = some after ∧ after.queue = [] ∧
    ∃ service, after.completed = [service] ∧ Right peer service ∧
      ∀ subscription ∈ after.subscribed, OnOffered peer subscription

/-- What was left from earlier does no harm with this peer: there is nothing for what it does
not have, and what is not looked for is right. A notification source comes with a data source. -/
structure Harmless (app : App) (peer : Peer) : Prop where
  missing : ∀ index < numChars, offered peer.attrs index = none →
    (app.service.charData index).startHandle = invalidAttHandle ∧
    (app.service.charData index).ccdHandle = invalidAttHandle
  controlPoint : (app.service.charData 1).ccdHandle = offeredCcd peer.attrs 1
  dataSource : offered peer.attrs 0 = none →
    (app.service.charData 2).ccdHandle = offeredCcd peer.attrs 2
  complete : offered peer.attrs 0 ≠ none → offered peer.attrs 2 ≠ none

section Connection

variable {peer : Peer} {before after : GattService}

theorem offered_none_of_ancsChars {attrs : List Attr} (hnone : ancsChars attrs = []) (index : Nat) :
    offered attrs index = none := by
  rw [offered, hnone]
  rfl

/-- A characteristic that has a CCC is in front of it. -/
theorem Peer.ccc_of_offered (peer : Peer) {index handle : Nat} (hindex : index < numChars)
    (hccd : hasCcd index = true) (hoffered : offered peer.attrs index = some handle) :
    ⟨handle + 2, .ccc⟩ ∈ peer.attrs ∧ (handle + 2) % 0x10000 = handle + 2 ∧
      handle ≠ invalidAttHandle := by
  rw [offered, Option.map_eq_some_iff] at hoffered
  obtain ⟨attr, hfind, rfl⟩ := hoffered
  have hmem := List.mem_of_find?_eq_some hfind
  have hkind : attr.kind = .characteristic (charUuid index) := by
    simpa using List.find?_some hfind
  have hccc := peer.wellFormed.notifies index hindex hccd attr hmem hkind
  have hmax := (peer.wellFormed.handles _ hccc).2
  refine ⟨hccc, Nat.mod_eq_of_lt (Nat.lt_succ_of_le hmax), ?_⟩
  have hattr : attr ∈ peer.attrs := by
    rw [ancsChars] at hmem
    cases hservice : ancsService peer.attrs with
    | none =>
        rw [hservice] at hmem
        exact absurd hmem List.not_mem_nil
    | some service =>
        rw [hservice] at hmem
        exact List.mem_of_mem_filter hmem
  exact Nat.ne_of_gt (peer.wellFormed.handles attr hattr).1

theorem Peer.offeredCcd_eq (peer : Peer) {index handle : Nat} (hindex : index < numChars)
    (hccd : hasCcd index = true) (hoffered : offered peer.attrs index = some handle) :
    offeredCcd peer.attrs index = handle + 2 := by
  rw [offeredCcd, hoffered]
  exact if_pos (peer.ccc_of_offered hindex hccd hoffered).1

theorem Discovered.start_of_offered (hdiscovered : Discovered peer.attrs before after)
    {index handle : Nat} (hindex : index < numChars)
    (hoffered : offered peer.attrs index = some handle) :
    (after.charData index).startHandle = handle := by
  rw [hdiscovered.starts index hindex, hoffered, Option.getD_some]

theorem Discovered.start_of_missing (hdiscovered : Discovered peer.attrs before after)
    {index : Nat} (hindex : index < numChars) (hmissing : offered peer.attrs index = none) :
    (after.charData index).startHandle = (before.charData index).startHandle := by
  rw [hdiscovered.starts index hindex, hmissing, Option.getD_none]

/-- With a notification source both CCCs are looked for. -/
theorem Discovered.ccds_of_notification (hdiscovered : Discovered peer.attrs before after)
    {handle : Nat} (hoffered : offered peer.attrs 0 = some handle) :
    (after.charData 0).ccdHandle = handle + 2 ∧ ∀ other, offered peer.attrs 2 = some other →
      (after.charData 2).ccdHandle = other + 2 := by
  obtain ⟨hccc, hmod, hvalid⟩ := peer.ccc_of_offered (by decide) rfl hoffered
  have hchars : ancsChars peer.attrs ≠ [] := by
    intro hnone
    rw [offered_none_of_ancsChars hnone] at hoffered
    exact absurd hoffered (by simp)
  have hstart := hdiscovered.start_of_offered (by decide) hoffered
  have hasked : (after.charData 0).startHandle ≠ invalidAttHandle := by
    rw [hstart]
    exact hvalid
  have hfound : (⟨((after.charData 0).startHandle + 2) % 0x10000, .ccc⟩ : Attr) ∈ peer.attrs := by
    rw [hstart, hmod]
    exact hccc
  constructor
  · rw [hdiscovered.notification hchars hasked hfound, hstart, hmod]
  · intro other hother
    obtain ⟨hccc2, hmod2, -⟩ := peer.ccc_of_offered (by decide) rfl hother
    rw [hdiscovered.dataSource hchars hasked hfound,
      hdiscovered.start_of_offered (by decide) hother, hmod2, if_pos hccc2]

/-- Without one, and with no handle left from another peer, none is. -/
theorem Discovered.ccds_of_missing (hdiscovered : Discovered peer.attrs before after)
    (hmissing : offered peer.attrs 0 = none)
    (hstart : (before.charData 0).startHandle = invalidAttHandle) (index : Nat) :
    (after.charData index).ccdHandle = (before.charData index).ccdHandle := by
  apply hdiscovered.skipped
  right
  rw [hdiscovered.start_of_missing (by decide) hmissing, hstart]

theorem harmless_of_right {app : App} (hdiscovered : Discovered peer.attrs app.service after)
    (hright : Right peer after)
    (hsubscribed : ∀ subscription ∈ subscribedFor after, OnOffered peer subscription) :
    Harmless app peer := by
  have hstart : ∀ index < numChars, offered peer.attrs index = none →
      (app.service.charData index).startHandle = invalidAttHandle := by
    intro index hindex hmissing
    rw [← hdiscovered.start_of_missing hindex hmissing, (hright index hindex).1, offeredStart,
      hmissing, Option.getD_none]
  have hccds : offered peer.attrs 0 = none → ∀ index,
      (after.charData index).ccdHandle = (app.service.charData index).ccdHandle :=
    fun hmissing index => hdiscovered.ccds_of_missing hmissing (hstart 0 (by decide) hmissing) index
  have hcomplete : offered peer.attrs 0 ≠ none → offered peer.attrs 2 ≠ none := by
    intro hoffered hmissing
    obtain ⟨handle, hhandle⟩ := Option.ne_none_iff_exists'.mp hoffered
    have hccd := (hdiscovered.ccds_of_notification hhandle).1
    have hon : OnOffered peer ((after.charData 2).ccdHandle,
        ((after.charData 2).startHandle + 1) % 0x10000) := by
      apply hsubscribed
      rw [subscribedFor, if_pos (by rw [hccd, invalidAttHandle]; omega), subscriptions]
      exact List.mem_cons_self
    obtain ⟨index, hindex, other, -, -, hpair⟩ := hon
    have hinvalid : (after.charData 2).ccdHandle = 0 := by
      rw [(hright 2 (by decide)).2, offeredCcd, hmissing]
      rfl
    have hother := (Prod.mk.inj hpair).1
    omega
  refine ⟨?_, ?_, ?_, hcomplete⟩
  · intro index hindex hmissing
    refine ⟨hstart index hindex hmissing, ?_⟩
    have hccd : (after.charData index).ccdHandle = invalidAttHandle := by
      rw [(hright index hindex).2, offeredCcd, hmissing]
    by_cases hcontrol : index = 1
    · subst hcontrol
      rw [← hdiscovered.controlPoint, hccd]
    · have hnotification : offered peer.attrs 0 = none := by
        by_contra hoffered
        have hcase : index = 0 ∨ index = 2 := by
          rw [numChars] at hindex
          omega
        rcases hcase with rfl | rfl
        · exact hoffered hmissing
        · exact hcomplete hoffered hmissing
      rw [← hccds hnotification index, hccd]
  · rw [← hdiscovered.controlPoint, (hright 1 (by decide)).2]
  · intro hmissing
    rw [← hccds hmissing 2, (hright 2 (by decide)).2]

theorem right_of_harmless {app : App} (hdiscovered : Discovered peer.attrs app.service after)
    (hharmless : Harmless app peer) : Right peer after := by
  intro index hindex
  constructor
  · cases hoffered : offered peer.attrs index with
    | some handle =>
        rw [hdiscovered.start_of_offered hindex hoffered, offeredStart, hoffered, Option.getD_some]
    | none =>
        rw [hdiscovered.start_of_missing hindex hoffered, offeredStart, hoffered, Option.getD_none]
        exact (hharmless.missing index hindex hoffered).1
  · have hcase : index = 0 ∨ index = 1 ∨ index = 2 := by
      rw [numChars] at hindex
      omega
    cases hnotification : offered peer.attrs 0 with
    | none =>
        have hstart := (hharmless.missing 0 (by decide) hnotification).1
        have hccds := hdiscovered.ccds_of_missing hnotification hstart
        rcases hcase with rfl | rfl | rfl
        · rw [hccds 0, (hharmless.missing 0 hindex hnotification).2, offeredCcd, hnotification]
        · rw [hccds 1, hharmless.controlPoint]
        · rw [hccds 2, hharmless.dataSource hnotification]
    | some handle =>
        obtain ⟨hccd0, hccd2⟩ := hdiscovered.ccds_of_notification hnotification
        have hdata : offered peer.attrs 2 ≠ none := hharmless.complete (by simp [hnotification])
        obtain ⟨other, hother⟩ := Option.ne_none_iff_exists'.mp hdata
        rcases hcase with rfl | rfl | rfl
        · rw [hccd0, peer.offeredCcd_eq hindex rfl hnotification]
        · rw [hdiscovered.controlPoint, hharmless.controlPoint]
        · rw [hccd2 other hother, peer.offeredCcd_eq hindex rfl hother]

theorem onOffered_of_harmless {app : App} (hdiscovered : Discovered peer.attrs app.service after)
    (hharmless : Harmless app peer) :
    ∀ subscription ∈ subscribedFor after, OnOffered peer subscription := by
  intro subscription hsubscription
  have hright := right_of_harmless hdiscovered hharmless
  cases hnotification : offered peer.attrs 0 with
  | none =>
      have hccd : (after.charData 0).ccdHandle = invalidAttHandle := by
        rw [(hright 0 (by decide)).2, offeredCcd, hnotification]
      rw [subscribedFor, if_neg (not_not.mpr hccd)] at hsubscription
      exact absurd hsubscription List.not_mem_nil
  | some handle =>
      obtain ⟨hccd0, hccd2⟩ := hdiscovered.ccds_of_notification hnotification
      have hdata : offered peer.attrs 2 ≠ none := hharmless.complete (by simp [hnotification])
      obtain ⟨other, hother⟩ := Option.ne_none_iff_exists'.mp hdata
      have hstart0 := hdiscovered.start_of_offered (by decide) hnotification
      have hstart2 := hdiscovered.start_of_offered (by decide) hother
      obtain ⟨hccc0, hmod0, -⟩ := peer.ccc_of_offered (by decide) rfl hnotification
      obtain ⟨hccc2, hmod2, -⟩ := peer.ccc_of_offered (by decide) rfl hother
      have hboth : subscribedFor after = [(other + 2, other + 1), (handle + 2, handle + 1)] := by
        have hvalid : (after.charData 0).ccdHandle ≠ invalidAttHandle := by
          rw [hccd0, invalidAttHandle]
          omega
        rw [subscribedFor, if_pos hvalid, subscriptions, hccd0, hccd2 other hother, hstart0,
          hstart2, Nat.mod_eq_of_lt (show other + 1 < 0x10000 by omega),
          Nat.mod_eq_of_lt (show handle + 1 < 0x10000 by omega)]
      rw [hboth, List.mem_cons, List.mem_singleton] at hsubscription
      rcases hsubscription with rfl | rfl
      · exact ⟨2, by decide, other, hother, hccc2, rfl⟩
      · exact ⟨0, by decide, handle, hnotification, hccc0, rfl⟩

end Connection

/-- Connections one after the other. -/
def connectionStep (app : App) (peer : Peer) : App := (connection app peer.attrs).getD app

theorem reports_iff {app : App} (hrest : AtRest app) (peer : Peer) :
    Reports app peer ↔ Harmless app peer := by
  obtain ⟨after, service, hconnection, hafter, -, hcompleted, hsubscribed, hdiscovered⟩ :=
    connection_spec peer.wellFormed hrest
  constructor
  · rintro ⟨other, hother, -, result, hresult, hright, honly⟩
    obtain rfl := Option.some.inj (hconnection.symm.trans hother)
    rw [hcompleted] at hresult
    obtain rfl := (List.cons.inj hresult).1
    rw [hsubscribed] at honly
    exact harmless_of_right hdiscovered hright honly
  · intro hharmless
    refine ⟨after, hconnection, hafter.queue, service, hcompleted,
      right_of_harmless hdiscovered hharmless, ?_⟩
    rw [hsubscribed]
    exact onOffered_of_harmless hdiscovered hharmless

theorem atRest_connectionStep {app : App} (hrest : AtRest app) (peer : Peer) :
    AtRest (connectionStep app peer) := by
  obtain ⟨after, -, hconnection, hafter, -⟩ := connection_spec peer.wellFormed hrest
  rw [connectionStep, hconnection, Option.getD_some]
  exact hafter

/-- In a sequence of connections discovery reports each peer exactly if what is left from the
connections before it does no harm. -/
theorem connections_report_iff (app : App) (hrest : AtRest app) (peers : List Peer) :
    Along connectionStep Reports app peers ↔ Along connectionStep Harmless app peers :=
  along_congr_of_invariant AtRest (fun _ peer hcurrent => reports_iff hcurrent peer)
    (fun _ peer hcurrent _ => atRest_connectionStep hcurrent peer) hrest

/-! ## Two phones -/

/-- A phone with ANCS: its own service, then the notification source, the control point and the
data source. -/
def phone : Peer where
  attrs :=
    [⟨1, .primary [0x00, 0x18] 9⟩, ⟨10, .primary ancsServiceUuid 20⟩,
      ⟨11, .characteristic (charUuid 0)⟩, ⟨12, .value⟩, ⟨13, .ccc⟩,
      ⟨14, .characteristic (charUuid 1)⟩, ⟨15, .value⟩,
      ⟨16, .characteristic (charUuid 2)⟩, ⟨17, .value⟩, ⟨18, .ccc⟩]
  wellFormed := by
    constructor
    all_goals decide

/-- One without. -/
def otherPhone : Peer where
  attrs := [⟨1, .primary [0x00, 0x18] 9⟩]
  wellFormed := by
    constructor
    all_goals decide

/-- The state before the first connection. -/
def noHandles : App :=
  ⟨⟨0, 0, 0, fun _ => ⟨0, 0, 0⟩⟩, 0, false, false, false, false, false, false, [], [], []⟩

theorem atRest_noHandles : AtRest noHandles := ⟨⟨rfl, rfl, rfl, rfl⟩, rfl⟩

/-- The same phone twice. -/
theorem connections_report_phone : Along connectionStep Reports noHandles [phone, phone] := by
  rw [connections_report_iff noHandles atRest_noHandles]
  refine ⟨?_, ?_, trivial⟩
  all_goals
    constructor
    all_goals decide

/-- A phone without ANCS after one with it is taken for the other. -/
theorem connections_misreport_other_phone :
    ¬ Along connectionStep Reports noHandles [phone, otherPhone] := by
  intro hall
  have hrest := atRest_connectionStep atRest_noHandles phone
  have hharmless := (reports_iff hrest otherPhone).mp hall.2.1
  have hmissing := (hharmless.missing 0 (by decide) (by decide)).2
  exact absurd hmissing (by decide)

end CubieBle.Ancs.Discovery
