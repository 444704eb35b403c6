import Eeemail.Drafting

/-! # From the draft to the queue

What `send_msg` made of a message that it accepted: the chat it was loaded
with, what the policy allowed, whom `from_msg` addressed, and the rows of the
`smtp` queue with the addressees that were left out of them. -/

set_option autoImplicit false

namespace Eeemail.Queueing

open Lib.Texts Lib.Actions Store Contacts Gating Recipients Policy Chats MimeFactory
open Sending

variable {msg : Message} {draws : Draws} {now : Int} {db db' : Db} {u : Unit} {chat : Chat}
variable {addressing : Addressing} {factory : Factory}

section

variable [Unicode]

/-! ## Inversion -/

def outgoing (msg : Message) (now : Int) : Message :=
  { msg with
    hidden := false
    state := .outPending
    timestamp := now
    param := { msg.param with guaranteeE2ee := false, forcePlaintext := false } }

theorem sendMsg_eq_ok {chatId : ChatId}
    (success : (sendMsg chatId msg draws now).run db = .ok u db') :
    ∃ chat, db.chatById chatId = some chat ∧ whyCantSend chat false db = none ∧
      (createSendMsgJobs (prepareMsgRaw chat (outgoing msg now) now db).1 draws now).run
        (prepareMsgRaw chat (outgoing msg now) now db).2 = .ok u db' := by
  unfold sendMsg at success
  obtain ⟨_, success⟩ := ensure_bind_eq_ok.mp success
  obtain ⟨chat, found, success⟩ := querySome_bind_eq_ok.mp success
  have success := query_bind_eq_ok.mp success
  cases refusal : whyCantSend chat false db with
  | some reason =>
    simp only [refusal] at success
    cases success
  | none =>
    simp only [refusal] at success
    have success := execReturning_bind_eq_ok.mp success
    exact ⟨chat, found, refusal, onError_eq_ok.mp success⟩

def needsEncryption (msg : Message) (db : Db) : Bool :=
  msg.param.guaranteeE2ee || (!msg.param.forcePlaintext && db.config.forceEncryption)

theorem createSendMsgJobs_eq_ok (success : (createSendMsgJobs msg draws now).run db = .ok u db') :
    ∃ allowed factory made,
      (prepareSend msg ((db.chatById msg.chatId).toList.map (·.contactId))).run db =
        .ok allowed db ∧
      (fromMsg allowed now).run (applyDefaultTimer allowed.chatId allowed.id
        ((db.chatById msg.chatId).toList.map (·.contactId)) db) = .ok factory made ∧
      (renderAndQueue factory (needsEncryption allowed db) draws now).run made = .ok u db' := by
  unfold createSendMsgJobs at success
  have success := query_bind_eq_ok.mp success
  obtain ⟨allowed, known, success⟩ := queryExcept_bind_eq_ok.mp success
  have success := exec_bind_eq_ok.mp success
  have success := query_bind_eq_ok.mp success
  obtain ⟨factory, made, built, success⟩ := bind_eq_ok.mp success
  have sameConfig : (applyDefaultTimer allowed.chatId allowed.id
      ((db.chatById msg.chatId).toList.map (·.contactId)) db).config = db.config := by
    unfold applyDefaultTimer
    simp only
    split <;> rfl
  refine ⟨allowed, factory, made, (queryExcept_eq_ok _).mpr ⟨known, rfl⟩,
    onError_eq_ok.mp built, ?_⟩
  rw [needsEncryption, ← sameConfig]
  exact success

def memberOf (contact : Contact) (db : Db) : Member :=
  { contact, key := db.publicKeyFor contact.fingerprint }

def memberIn (chat : Chat) (db : Db) : Option Member :=
  if chat.contactId ≤ ContactId.lastSpecial then none
  else (db.contactById chat.contactId).map fun contact => memberOf contact db

omit [Unicode] in
theorem loadMember_eq_ok {member : Option Member}
    (success : (loadMember chat).run db = .ok member db') :
    member = memberIn chat db ∧ db' = db ∧
      (ContactId.lastSpecial < chat.contactId → ∃ contact,
        db.contactById chat.contactId = some contact ∧ member = some (memberOf contact db)) := by
  obtain ⟨found, rfl⟩ := (queryExcept_eq_ok _).mp success
  unfold memberIn
  split at found
  next special =>
    injection found with isMember
    rw [if_pos special]
    exact ⟨isMember.symm, rfl, fun real => absurd special (Nat.not_le.mpr real)⟩
  next real =>
    rw [if_neg real]
    cases known : db.contactById chat.contactId with
    | none =>
      simp only [known] at found
      cases found
    | some contact =>
      simp only [known] at found
      injection found with isMember
      exact ⟨isMember.symm, rfl, fun _ => ⟨contact, rfl, isMember.symm⟩⟩

theorem memberAddressing_run (success : (memberAddressing msg chat).run db = .ok addressing db') :
    ∃ member, (loadMember chat).run db = .ok member db ∧
      (scaleupOrigin (member.toList.map (·.contact.id)) .outgoingTo).run db = .ok () db' ∧
      addressTo (encrypts msg chat db) member
        (extraRecipients msg.id (member.toList.flatMap Member.relays) db')
        (importanceOf msg.id db') = .ok addressing := by
  unfold memberAddressing at success
  have success := query_bind_eq_ok.mp success
  obtain ⟨member, _, loaded, success⟩ := bind_eq_ok.mp success
  obtain ⟨_, rfl, _⟩ := loadMember_eq_ok loaded
  obtain ⟨_, _, raised, success⟩ := bind_eq_ok.mp success
  have success := query_bind_eq_ok.mp success
  have success := query_bind_eq_ok.mp success
  obtain ⟨made, rfl⟩ := (queryExcept_eq_ok _).mp success
  exact ⟨member, loaded, raised, made⟩

theorem memberAddressing_eq_ok (real : ContactId.lastSpecial < chat.contactId)
    (success : (memberAddressing msg chat).run db = .ok addressing db') :
    ∃ contact, db.contactById chat.contactId = some contact ∧
      (scaleupOrigin [contact.id] .outgoingTo).run db = .ok () db' ∧
      addressTo (encrypts msg chat db) (some (memberOf contact db))
        (extraRecipients msg.id (memberOf contact db).relays db') (importanceOf msg.id db') =
        .ok addressing := by
  obtain ⟨member, loaded, raised, made⟩ := memberAddressing_run success
  obtain ⟨contact, known, rfl⟩ := (loadMember_eq_ok loaded).2.2 real
  simp only [Option.toList_some, List.flatMap_cons, List.flatMap_nil, List.append_nil] at made
  exact ⟨contact, known, raised, made⟩

def factoryOf (msg row : Message) (chat : Chat) (fromAddr : Text) (addressing : Addressing)
    (now : Int) (requests : Bool) (displayname : Text) (db : Db) : Factory :=
  { fromAddr
    fromDisplayname := displayname
    addressing
    msg
    chat
    inReplyTo := row.mimeInReplyTo
    references := parseReferences row.mimeReferences
    reqMdn := !isSelfTalk chat && !isSystemMessage msg && requests
    attachSelfavatar := shallAttachSelfavatar chat now db && addressing.encryption != .no }

theorem fromMsg_eq_ok (success : (fromMsg msg now).run db = .ok factory db') :
    ∃ chat fromAddr addressing row,
      db.chatById msg.chatId = some chat ∧
      db.config.configuredAddr = some fromAddr ∧
      ((isSelfTalk chat = true ∧
          addressing = selfAddressing (db.config.displayname.getD []) fromAddr ∧ db' = db) ∨
        (isSelfTalk chat = false ∧
          (memberAddressing msg chat).run db = .ok addressing db')) ∧
      db'.msgById msg.id = some row ∧
      factory = factoryOf msg row chat fromAddr addressing now (shouldRequestMdns db)
        (db.config.displayname.getD []) db' := by
  unfold fromMsg at success
  obtain ⟨chat, found, success⟩ := querySome_bind_eq_ok.mp success
  obtain ⟨fromAddr, configured, success⟩ := querySome_bind_eq_ok.mp success
  have success := query_bind_eq_ok.mp success
  have success := query_bind_eq_ok.mp success
  obtain ⟨addressing, made, addressed, success⟩ := bind_eq_ok.mp success
  obtain ⟨row, hasRow, success⟩ := querySome_bind_eq_ok.mp success
  have success := query_bind_eq_ok.mp success
  obtain ⟨rfl, rfl⟩ := pure_eq_ok.mp success
  refine ⟨chat, fromAddr, addressing, row, found, configured, ?_, hasRow, rfl⟩
  unfold addressingOf at addressed
  split at addressed
  next own =>
    obtain ⟨rfl, rfl⟩ := pure_eq_ok.mp addressed
    exact Or.inl ⟨own, rfl, rfl⟩
  next other => exact Or.inr ⟨by simpa using other, addressed⟩

/-! ## Rendering -/

def outsideGossip (db : Db) : Db := { db with gossipTimestamps := [] }

theorem keeps_gossipKey (chatId : ChatId) (now : Int) (key : Text × PublicKey) :
    Keeps outsideGossip (gossipKey chatId now key) := by
  refine Keeps.bind (Keeps.query _) fun due => ?_
  exact Keeps.ite (Keeps.bind (Keeps.exec fun _ => rfl) fun _ => Keeps.pure _) (Keeps.pure _)

theorem keeps_gossipHeaders (factory : Factory) (now : Int) :
    Keeps outsideGossip (gossipHeaders factory now) := by
  unfold gossipHeaders
  split
  · exact Keeps.pure _
  · refine Keeps.bind (Keeps.query _) fun bccSelf => Keeps.ite ?_ (Keeps.pure _)
    exact Keeps.bind (Keeps.collect (keeps_gossipKey _ now) _) fun _ => Keeps.pure _

theorem keeps_render (factory : Factory) (mid : Text) (outerDate now : Int) :
    Keeps outsideGossip (render factory mid outerDate now) := by
  refine Keeps.bind (Keeps.query _) fun subject => Keeps.bind (Keeps.query _) fun headers => ?_
  refine Keeps.bind (keeps_gossipHeaders factory now) fun gossip => ?_
  exact Keeps.bind (Keeps.query _) fun selfKey => Keeps.pure _

theorem keeps_renderMessages (factory : Factory) (draws : Draws) (now : Int) :
    Keeps outsideGossip (renderMessages factory draws now) := by
  refine Keeps.ite ?_ ?_
  · exact Keeps.bind (keeps_render _ _ _ _) fun _ => Keeps.bind (keeps_render _ _ _ _) fun _ =>
      Keeps.pure _
  · exact Keeps.bind (keeps_render _ _ _ _) fun _ => Keeps.pure _

theorem renderQueuedMail_encryption (mid fromAddr displayName : Text) (headers : List Header)
    (encryption : Encryption) (selfKey : PublicKey) (outerDate : Int) :
    (renderQueuedMail mid fromAddr displayName headers encryption selfKey outerDate).encryption =
      encryption := by
  cases encryption <;> rfl

theorem render_eq_ok {mid : Text} {outerDate : Int} {subject : Text} {mail : RenderedEmail}
    (success : (render factory mid outerDate now).run db = .ok (subject, mail) db') :
    ∃ gossip, (gossipHeaders factory now).run db = .ok gossip db' ∧
      subject = subjectStr factory db ∧
      mail = renderQueuedMail mid factory.fromAddr factory.fromDisplayname
        (renderHeaders factory subject db ++ messageHeaders factory db ++ gossip)
        factory.addressing.encryption db.config.selfKey outerDate := by
  unfold render at success
  have success := query_bind_eq_ok.mp success
  have success := query_bind_eq_ok.mp success
  obtain ⟨gossip, gossiped, collected, success⟩ := bind_eq_ok.mp success
  have success := query_bind_eq_ok.mp success
  obtain ⟨same, rfl⟩ := pure_eq_ok.mp success
  obtain ⟨rfl, rfl⟩ := Prod.mk.inj same
  have sameConfig : gossiped.config = db.config :=
    congrArg (·.config) ((keeps_gossipHeaders factory now).of_ok collected)
  exact ⟨gossip, collected, rfl, by rw [sameConfig]⟩

theorem encryption_of_render {mid : Text} {outerDate : Int} {result : Text × RenderedEmail}
    (success : (render factory mid outerDate now).run db = .ok result db') :
    result.2.encryption = factory.addressing.encryption := by
  obtain ⟨_, _, _, made⟩ := render_eq_ok success
  rw [made, renderQueuedMail_encryption]

theorem encryption_of_renderMessages {rendered : Rendered}
    (success : (renderMessages factory draws now).run db = .ok rendered db') :
    ∀ mail ∈ rendered.pre.toList ++ [rendered.main],
      mail.encryption = factory.addressing.encryption := by
  unfold renderMessages at success
  simp only at success
  split at success
  · obtain ⟨⟨subject, main⟩, _, first, success⟩ := bind_eq_ok.mp success
    obtain ⟨⟨_, pre⟩, _, second, success⟩ := bind_eq_ok.mp success
    obtain ⟨rfl, rfl⟩ := pure_eq_ok.mp success
    intro mail member
    simp only [Option.toList_some, List.cons_append, List.nil_append, List.mem_cons,
      List.not_mem_nil, or_false] at member
    rcases member with rfl | rfl
    · exact encryption_of_render second
    · exact encryption_of_render first
  · obtain ⟨⟨subject, main⟩, _, only, success⟩ := bind_eq_ok.mp success
    obtain ⟨rfl, rfl⟩ := pure_eq_ok.mp success
    intro mail member
    simp only [Option.toList_none, List.nil_append, List.mem_singleton] at member
    rw [member]
    exact encryption_of_render only

/-! ## Queueing -/

def headerAddrs (addressing : Addressing) : List Text :=
  (addressing.toHeader ++ addressing.ccHeader).map (·.2)

def queueView (db : Db) : List SmtpRow × List MsgUndelivered := (db.smtp, db.msgUndelivered)

def queueRows (msgId : MsgId) (rendered : Rendered) (recipients : List Text) : List SmtpRow :=
  if recipients.isEmpty then []
  else
    (rendered.pre.toList ++ [rendered.main]).map fun mime =>
      { rfc724Mid := mime.rfc724Mid, recipients, mime, msgId }

omit [Unicode] in
theorem smtp_enqueue (msgId : MsgId) (rendered : Rendered) (recipients : List Text) (db : Db) :
    (enqueue msgId rendered recipients db).smtp =
      db.smtp ++ queueRows msgId rendered recipients := by
  unfold enqueue queueRows
  simp only
  split
  · exact (List.append_nil _).symm
  · rw [List.map_append]
    rfl

/-- The queue after a message was handled: it went to nobody, or it is queued and
who is not in the envelope is recorded. -/
inductive Handled (msgId : MsgId) (addressing : Addressing) (db db' : Db) : Prop where
  | skipped (copies : db.config.bccSelf = false) (nobody : addressing.recipients = [])
      (smtp : db'.smtp = db.smtp) (undelivered : db'.msgUndelivered = db.msgUndelivered)
  | queued (rendered : Rendered)
      (encryption : ∀ mail ∈ rendered.pre.toList ++ [rendered.main],
        mail.encryption = addressing.encryption)
      (smtp : db'.smtp = db.smtp ++ queueRows msgId rendered
        (envelope addressing.recipients (addressing.encryption != .no) db))
      (undelivered : db'.msgUndelivered = (recordUndelivered msgId (headerAddrs addressing)
        (envelope addressing.recipients (addressing.encryption != .no) db) db).msgUndelivered)

omit [Unicode] in
theorem envelope_congr (same : db'.config = db.config) (recipients : List Text) (encrypted : Bool) :
    envelope recipients encrypted db' = envelope recipients encrypted db := by
  simp only [envelope, publishedSecondarySelfAddrs, same]

theorem Handled.of_same {msgId : MsgId} {earlier : Db} (handled : Handled msgId addressing db db')
    (sameConfig : db.config = earlier.config) (sameQueue : queueView db = queueView earlier) :
    Handled msgId addressing earlier db' := by
  obtain ⟨sameSmtp, sameUndelivered⟩ := Prod.mk.inj sameQueue
  cases handled with
  | skipped copies nobody smtp undelivered =>
    exact .skipped (sameConfig ▸ copies) nobody (smtp.trans sameSmtp)
      (undelivered.trans sameUndelivered)
  | queued rendered encryption smtp undelivered =>
    rw [envelope_congr sameConfig] at smtp undelivered
    refine .queued rendered encryption (smtp.trans ?_) (undelivered.trans ?_)
    · rw [sameSmtp]
    · simp only [recordUndelivered, sameUndelivered]

theorem queueRendered_eq_ok {rendered : Rendered}
    (success : (queueRendered factory rendered now).run db = .ok u db') :
    db'.smtp = db.smtp ++ queueRows factory.msg.id rendered
        (envelope factory.addressing.recipients rendered.main.isEncrypted db) ∧
      db'.msgUndelivered = (recordUndelivered factory.msg.id (headerAddrs factory.addressing)
        (envelope factory.addressing.recipients rendered.main.isEncrypted db)
        db).msgUndelivered := by
  unfold queueRendered at success
  have success := query_bind_eq_ok.mp success
  obtain ⟨_, stamped, avatar, success⟩ := bind_eq_ok.mp success
  have sameQueue : queueView stamped = queueView db :=
    Keeps.of_ok (Keeps.onlyIf _ (Keeps.exec fun _ => by rfl)) avatar
  obtain ⟨sameSmtp, sameUndelivered⟩ := Prod.mk.inj sameQueue
  obtain ⟨_, _, updated, success⟩ := bind_eq_ok.mp success
  obtain ⟨_, _, stored, success⟩ := bind_eq_ok.mp success
  obtain ⟨_, _, recorded, success⟩ := bind_eq_ok.mp success
  simp only [exec_run, EStateM.Result.ok.injEq, true_and] at updated stored recorded success
  subst updated stored recorded success
  constructor
  · rw [smtp_enqueue]
    exact congrArg (· ++ _) sameSmtp
  · have same : (enqueue factory.msg.id rendered
        (envelope factory.addressing.recipients rendered.main.isEncrypted db)
        (recordUndelivered factory.msg.id (headerAddrs factory.addressing)
          (envelope factory.addressing.recipients rendered.main.isEncrypted db)
          (storeSentRecipients factory.msg.id factory.addressing
            (updateSent factory.msg rendered stamped)))).msgUndelivered =
        (recordUndelivered factory.msg.id (headerAddrs factory.addressing)
          (envelope factory.addressing.recipients rendered.main.isEncrypted db)
          stamped).msgUndelivered := by
      unfold enqueue
      simp only
      split <;> rfl
    refine same.trans ?_
    simp only [recordUndelivered, sameUndelivered]

theorem handled_of_renderAndQueue {needs : Bool}
    (success : (renderAndQueue factory needs draws now).run db = .ok u db') :
    Handled factory.msg.id factory.addressing db db' := by
  unfold renderAndQueue at success
  have success := query_bind_eq_ok.mp success
  split at success
  next nobody =>
    simp only [exec_run, EStateM.Result.ok.injEq, true_and] at success
    simp only [Bool.and_eq_true, Bool.not_eq_true', List.isEmpty_iff] at nobody
    subst success
    exact .skipped nobody.1 nobody.2 rfl rfl
  next =>
    obtain ⟨rendered, made, shown, success⟩ := bind_eq_ok.mp success
    have shown := onError_eq_ok.mp shown
    have encryption := encryption_of_renderMessages shown
    have isMain : rendered.main.encryption = factory.addressing.encryption :=
      encryption _ (List.mem_append_right _ List.mem_cons_self)
    have same : outsideGossip made = outsideGossip db :=
      (keeps_renderMessages factory draws now).of_ok shown
    split at success
    next =>
      unfold refuseCleartext at success
      obtain ⟨_, _, _, success⟩ := bind_eq_ok.mp success
      obtain ⟨_, _, _, success⟩ := bind_eq_ok.mp success
      obtain ⟨_, _, _, success⟩ := bind_eq_ok.mp success
      cases success
    next =>
      obtain ⟨smtp, undelivered⟩ := queueRendered_eq_ok success
      rw [RenderedEmail.isEncrypted, isMain] at smtp undelivered
      have sameConfig : made.config = db.config := congrArg (·.config) same
      have sameQueue : queueView (outsideGossip made) = queueView (outsideGossip db) :=
        congrArg queueView same
      exact Handled.of_same (.queued rendered encryption smtp undelivered) sameConfig sameQueue

end

end Eeemail.Queueing
