import IbSrp.CommandGather
import IbSrp.CreditProtocol
import IbSrp.ResponseParsing

/-!
# A command and its response on the wire

`srp_queuecommand` writes an SRP_CMD, `srpt_handle_cmd` reads it. When the target core is
done, `srpt_build_cmd_rsp` writes an SRP_RSP for the tag of the command, and
`srp_process_rsp` reads that. In the same way `srp_send_tsk_mgmt` writes an SRP_TSK_MGMT,
`srpt_handle_tsk_mgmt` reads it and `srpt_build_tskmgmt_rsp` answers it.

Tags are numbers of the initiator. It stores them in the byte order of its CPU, and the
target copies them in the byte order of its own, so that the two may differ. The target
keeps the tag of a command for the response. Its core only sees the low half of the
number, and nothing of a 32-bit tag if the byte orders differ. The core gets no task tag
at all: `srpt_handle_tsk_mgmt` looks for the task to abort and drops what it has found.
What `req_lim_delta` of a response is set to is left open here. LUNs are
written by `int_to_scsilun`, which has two bytes for each of four levels; the target
takes the first level only.
-/
namespace IbSrp.CommandExchange
open ByteBuffer MemoryRegistration Channel SrpCommand DescriptorFormat
open ResponseParsing (loadHost Rx Processed srpProcessRsp InBuffer scsiSenseBuffersize)
open TargetChannel (SrptRdmaCh SrpCmdRsp srptBuildCmdRsp srpRspFlagSnsvalid)
open TaskManagement (TskMgmtFunc srpTagTskMgmt srpTskMgmtSuccess srpRspFlagRspvalid)

section
variable (cpu : Bool)

end

section
variable (target : SrpTargetPort) (rkey : Rkey MrDesc → BitVec 32) (dir : DataDirection) (addr : ℕ)

/-- `srp_map_data` does not write to the fields from the tag to the CDB. -/
theorem put_fields (desc : DataDesc) (cmd : Buffer) {j : ℕ} (htag : tagOff ≤ j)
    (hcdb : j < addDataOff) : desc.put target rkey dir addr cmd j = cmd j := by
  have hfmt : bufFmtOff < j := by
    unfold bufFmtOff
    unfold tagOff at htag
    omega
  cases desc with
  | noData => rfl
  | imm len =>
      simp only [DataDesc.put]
      rw [setBufFmt_other _ _ _ hfmt, store_of_disjoint _ _ (Or.inl (by omega)),
        store_of_disjoint _ _ (Or.inl hcdb)]
  | direct buf =>
      simp only [DataDesc.put]
      rw [setBufFmt_other _ _ _ hfmt, store_of_disjoint _ _ (Or.inl hcdb)]
  | indirect table totalLen =>
      simp only [DataDesc.put]
      rw [setBufFmt_other _ _ _ hfmt, setDescCnt_other _ _ _ htag, putIndirect_header _ _ _ _ hcdb]

end

section
variable (hdr : CmdHeader) (cmd : Buffer)

end

def rspSize : ℕ := 36

section
variable (cpu : Bool) (delta : BitVec 32) (tag : ℕ) (buf : Buffer)

end

section
variable {b : Buffer} {tag : List Byte} {delta : BitVec 32} {flags status : Byte}
variable {senseLen respLen : BitVec 32}

end

section
variable (cpu : Bool) (ch : SrptRdmaCh) (delta : BitVec 32) (tag : ℕ) (status : Byte)
variable (sense : List Byte) (buf : Buffer)

end

section
variable (hca : Hca) {target : SrpTargetPort} {cpu : Bool} {b : Buffer} {tag : ℕ}
variable {delta : BitVec 32} {flags status : Byte} {senseLen respLen : BitVec 32}

end

/-- The size of `struct srp_tsk_mgmt`, and offsets in it. -/
def tskMgmtSize : ℕ := 48

section
variable (cpu : Bool) (reqTag lun : ℕ) (func : TskMgmtFunc) (buf : Buffer)

end

end IbSrp.CommandExchange
