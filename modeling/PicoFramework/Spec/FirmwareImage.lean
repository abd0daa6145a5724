import PicoFramework.Lib.Wire
import PicoFramework.Spec.Crc

/-! `firmware_image.c`: the header that describes a staged image in flash. -/

namespace Pico

open Lib.Wire

/-- "PFW1". -/
def FIRMWARE_IMAGE_MAGIC : UInt32 := 0x31574650

def FIRMWARE_IMAGE_HEADER_VERSION : UInt16 := 1

def FIRMWARE_IMAGE_MAX_PAYLOAD : UInt32 := 8 * 1024 * 1024

structure FirmwareImageHeader where
  magic : UInt32
  headerVersion : UInt16
  headerSize : UInt16
  payloadSize : UInt32
  payloadCrc32 : UInt32
  loadAddress : UInt32
  buildId : UInt32
  headerCrc32 : UInt32
deriving DecidableEq

/-- `sizeof(firmware_image_header_t)`. -/
def FIRMWARE_IMAGE_HEADER_SIZE : ℕ := 28

def FirmwareImageHeader.bytes (header : FirmwareImageHeader) : Bytes :=
  le32 header.magic ++ (le16 header.headerVersion ++ (le16 header.headerSize ++
    (le32 header.payloadSize ++ (le32 header.payloadCrc32 ++ (le32 header.loadAddress ++
      (le32 header.buildId ++ le32 header.headerCrc32))))))

def FirmwareImageHeader.ofBytes (raw : Bytes) : FirmwareImageHeader where
  magic := ofLe32 raw 0
  headerVersion := ofLe16 raw 4
  headerSize := ofLe16 raw 6
  payloadSize := ofLe32 raw 8
  payloadCrc32 := ofLe32 raw 12
  loadAddress := ofLe32 raw 16
  buildId := ofLe32 raw 20
  headerCrc32 := ofLe32 raw 24

inductive FirmwareImageResult where
  | ok
  | errInvalidArg
  | errBadMagic
  | errBadVersion
  | errBadSize
  | errBadHeaderCrc
  | errBadPayloadCrc
deriving DecidableEq, Repr

/-- `firmware_image_header_crc`: the CRC covers every field before itself. -/
def firmwareImageHeaderCrc (header : FirmwareImageHeader) : UInt32 :=
  crc32 (header.bytes.take (FIRMWARE_IMAGE_HEADER_SIZE - 4))

def firmwareImageHeaderInit (payloadSize payloadCrc32 loadAddress buildId : UInt32) :
    Except FirmwareImageResult FirmwareImageHeader :=
  if payloadSize = 0 ∨ payloadSize > FIRMWARE_IMAGE_MAX_PAYLOAD then .error .errBadSize
  else
    let header : FirmwareImageHeader :=
      { magic := FIRMWARE_IMAGE_MAGIC
        headerVersion := FIRMWARE_IMAGE_HEADER_VERSION
        headerSize := UInt16.ofNat FIRMWARE_IMAGE_HEADER_SIZE
        payloadSize, payloadCrc32, loadAddress, buildId
        headerCrc32 := 0 }
    .ok { header with headerCrc32 := firmwareImageHeaderCrc header }

def firmwareImageHeaderValidate (header : FirmwareImageHeader) : FirmwareImageResult :=
  if header.magic ≠ FIRMWARE_IMAGE_MAGIC then .errBadMagic
  else if header.headerVersion ≠ FIRMWARE_IMAGE_HEADER_VERSION ∨
      header.headerSize ≠ UInt16.ofNat FIRMWARE_IMAGE_HEADER_SIZE then .errBadVersion
  else if header.payloadSize = 0 ∨ header.payloadSize > FIRMWARE_IMAGE_MAX_PAYLOAD then .errBadSize
  else if header.headerCrc32 ≠ firmwareImageHeaderCrc header then .errBadHeaderCrc
  else .ok

def firmwareImageVerifyPayload (header : FirmwareImageHeader) (payloadCrc32 : UInt32) :
    FirmwareImageResult :=
  let result := firmwareImageHeaderValidate header
  if result ≠ .ok then result
  else if header.payloadCrc32 = payloadCrc32 then .ok
  else .errBadPayloadCrc

end Pico
